import DiagramEnergy.Json.Reader
import DiagramEnergy.Json.Writer
import DiagramEnergy.Path.Grammar

/-!
# Paths as JSON

A path is stored as its text.
-/

namespace DiagramEnergy.Path

def ofJson? : Json → Option Path
  | .text (some text) => (parse text).toOption
  | _ => none

def toJson (path : Path) : Json := .string path.text

def load? (source : String) : Option Path := (Json.parse source).bind ofJson?

def save (path : Path) : String := path.toJson.render

end DiagramEnergy.Path
