import OverlayHost.Config.Schema
import OverlayHost.Toml.Document

/-!
# Loading a configuration

From the text of a TOML document, or from what reading a file gave, to a configuration that has passed the check of
both agents.
-/

set_option autoImplicit false

namespace OverlayHost.Config

/-- The configuration that a TOML document gives, before any check. -/
def ofDocument (text : String) : Except ParseError Config :=
  match Toml.Document.parse text with
  | .error fault => .error ⟨.malformed fault.message, some (.ofSpan text fault.span)⟩
  | .ok document =>
    (ofFields document.values).mapError fun misfit =>
      ⟨.schema misfit.error, (document.place? misfit.path).map (Text.Excerpt.ofSpan text)⟩

/-- The configuration that a TOML document gives, once it has passed the check of both agents. -/
def ofToml (text : String) : Except Error Config := do
  let config ← (ofDocument text).mapError Error.parse
  config.validate
  return config

/-- The configuration in a file. -/
def ofFile (path : String) (content : FileContent) : Except Error Config :=
  match content with
  | .error cause => .error (.read path cause)
  | .ok bytes =>
    match String.fromUTF8? ⟨bytes.toArray⟩ with
    | some text => ofToml text
    | none => .error (.read path .notText)

end OverlayHost.Config
