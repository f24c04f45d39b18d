import OverlayHost.Text.Base64
import OverlayHost.Text.Quoted
import OverlayHost.Text.Utf8

/-!
# PEM files

A PEM file holds sections between a line that begins and a line that ends each; the two lines name what is in it. Text
outside of sections is passed over. A section of a known kind holds something in Base64; which kinds a file holds is all
that matters here.
-/

set_option autoImplicit false

namespace OverlayHost.Tls.Pem

/-- Why a file could not be read to its end. -/
inductive Fault where
  /-- A line begins a section but does not end with five dashes. -/
  | illegalStart (line : List UInt8)
  /-- A section has no end. -/
  | unfinished (label : List UInt8)
  /-- What a section holds cannot be decoded. -/
  | content (fault : Text.Base64.Fault)
deriving DecidableEq, Repr

/-- The fault in one line. -/
def Fault.message : Fault → String
  | .illegalStart line =>
    let shown := Text.quoted (Text.Utf8.lossy line)
    s!"illegal section start: {shown}"
  | .unfinished label =>
    let shown := Text.quoted (Text.Utf8.lossy label)
    s!"section end {shown} missing"
  | .content fault => fault.message

/-- The bytes of an ASCII text. -/
def ascii (s : String) : List UInt8 := s.toUTF8.toList

/-- What a line that begins a section starts with. -/
def opening : List UInt8 := ascii "-----BEGIN "

/-- What a line that ends a section starts with. -/
def closing : List UInt8 := ascii "-----END "

/-- Five dashes. -/
def dashes : List UInt8 := List.replicate 5 45

/-- Whether a byte ends a line. -/
def isLineEnd (b : UInt8) : Bool := b = 10 || b = 13

/-- The lines of a file, each with the byte that ends it. -/
def lines : List UInt8 → List (List UInt8)
  | [] => []
  | b :: rest =>
    if isLineEnd b then [b] :: lines rest
    else match lines rest with
      | [] => [[b]]
      | line :: others => (b :: line) :: others

/-- The dashes, blanks and line ends that a line ends with. -/
def tail (line : List UInt8) : List UInt8 :=
  (line.reverse.takeWhile fun b => b = 45 || b = 32 || isLineEnd b).reverse

/-- The name in a line that begins a section, if the line ends with five dashes. -/
def label? (line : List UInt8) : Option (List UInt8) :=
  let ending := tail line
  if ending.count 45 = 5 then
    let blanks := (ending.takeWhile (· ≠ 45)).length
    some ((line.take (line.length - ending.length + blanks)).drop opening.length)
  else none

/-- What a file holds: the names of its sections, up to the first fault. -/
structure Contents where
  labels : List (List UInt8)
  fault : Option Fault
deriving DecidableEq, Repr

/-- Adds a section in front. -/
def Contents.cons (label : List UInt8) (contents : Contents) : Contents :=
  { contents with labels := label :: contents.labels }

/-- The names of the sections that are decoded. -/
def knownLabels : List (List UInt8) :=
  ["CERTIFICATE", "PUBLIC KEY", "RSA PRIVATE KEY", "PRIVATE KEY", "EC PRIVATE KEY", "X509 CRL", "CERTIFICATE REQUEST",
    "ECHCONFIG"].map ascii

/-- Decodes what a section holds, if its kind is known. -/
def checkSection (label : List UInt8) (content : List UInt8) : Except Fault Unit :=
  if knownLabels.contains label then (Text.Base64.check content).mapError Fault.content else .ok ()

/-- Reads lines inside or outside of a section. `content` holds the lines that were collected, the last first; a section
that begins inside another goes on with its lines. -/
def scan : Option (List UInt8) → List (List UInt8) → List (List UInt8) → Contents
  | none, _, [] => ⟨[], none⟩
  | some label, _, [] => ⟨[], some (.unfinished label)⟩
  | current, content, line :: rest =>
    if opening.isPrefixOf line then
      match label? line with
      | some label => scan (some label) content rest
      | none => ⟨[], some (.illegalStart line)⟩
    else match current with
      | some label =>
        if (closing ++ label ++ dashes).isPrefixOf line then
          match checkSection label content.reverse.flatten with
          | .ok () => (scan none [] rest).cons label
          | .error fault => ⟨[], some fault⟩
        else scan current (line :: content) rest
      | none => scan none [] rest

/-- What a file holds. -/
def read (file : List UInt8) : Contents := scan none [] (lines file)

end OverlayHost.Tls.Pem
