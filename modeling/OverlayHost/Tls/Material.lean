import OverlayHost.FileContent
import OverlayHost.Tls.Pem

/-!
# TLS material

What a client needs to be known to a server and to know it: the certificates it trusts, its own certificate and its key,
each as the bytes of a PEM file.
-/

set_option autoImplicit false

namespace OverlayHost.Tls

/-- Why there is no usable material. -/
inductive Error where
  | read (path : String) (cause : ReadError)
  | pem (fault : Pem.Fault)
  | noCertificates (file : String)
  | noPrivateKey
deriving DecidableEq, Repr

/-- The error in one line. -/
def Error.message : Error → String
  | .read path cause => s!"reading {path}: {cause.message}"
  | .pem fault => s!"parsing PEM: {fault.message}"
  | .noCertificates file => s!"no certificates found in {file}"
  | .noPrivateKey => "no private key found in client key"

/-- The three files of a client. -/
structure Material where
  authorities : List UInt8
  certificate : List UInt8
  key : List UInt8
deriving DecidableEq, Repr

namespace Material

/-- The material in a few words, which do not give the key away. -/
def describe (material : Material) : String :=
  s!"TlsMaterial \x7b ca_pem: {material.authorities.length}, cert_pem: {material.certificate.length}, " ++
    "key_pem: \"<redacted>\" \x7d"

/-- The bytes of a file. -/
def readFile {m : Type → Type} [Monad m] (read : String → m FileContent) (path : String) :
    ExceptT Error m (List UInt8) := do
  match ← read path with
  | .ok bytes => return bytes
  | .error cause => throw (.read path cause)

/-- Reads the three files, in order, up to the first that cannot be read. -/
def load {m : Type → Type} [Monad m] (read : String → m FileContent) (authorities certificate key : String) :
    ExceptT Error m Material := do
  let authorities ← readFile read authorities
  let certificate ← readFile read certificate
  return { authorities, certificate, key := ← readFile read key }

/-- The name of a section with a certificate. -/
def certificateLabel : List UInt8 := Pem.ascii "CERTIFICATE"

/-- The names of sections with a private key. -/
def keyLabels : List (List UInt8) := ["PRIVATE KEY", "RSA PRIVATE KEY", "EC PRIVATE KEY"].map Pem.ascii

/-- A file has to be read without fault and to hold a certificate. -/
def requireCertificates (name : String) (file : List UInt8) : Except Error Unit :=
  let contents := Pem.read file
  match contents.fault with
  | some fault => .error (.pem fault)
  | none => if contents.labels.contains certificateLabel then .ok () else .error (.noCertificates name)

/-- A file has to hold a private key, before any fault. -/
def requireKey (file : List UInt8) : Except Error Unit :=
  let contents := Pem.read file
  if contents.labels.any keyLabels.contains then .ok ()
  else match contents.fault with
    | some fault => .error (.pem fault)
    | none => .error .noPrivateKey

/-- What a client configuration takes of the material: authorities, then certificate, then key. -/
def check (material : Material) : Except Error Unit := do
  requireCertificates "CA bundle" material.authorities
  requireCertificates "client certificate" material.certificate
  requireKey material.key

end Material

end OverlayHost.Tls
