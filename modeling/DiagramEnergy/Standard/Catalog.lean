import DiagramEnergy.Catalog
import DiagramEnergy.Config

/-!
# The standard catalog

Circles, rectangles, texts and lines for a canvas.  Positions are drawn from
the whole canvas; the size of a text is pending.
-/

namespace DiagramEnergy.Standard

def uniform (low high : Float) : PropertyDef :=
  { type := .float, sampler := .uniform low high }

def fixedText (text : String) : PropertyDef :=
  { type := .str, sampler := .fixed (.str text) }

def color : PropertyDef := { type := .color, sampler := .color }

def stroke : PropertyDef := { type := .str, sampler := .choice ["solid", "dashed"] }

def horizontal (canvas : Canvas) : PropertyDef :=
  uniform (-canvas.width / 2) (canvas.width / 2)

def vertical (canvas : Canvas) : PropertyDef :=
  uniform (-canvas.height / 2) (canvas.height / 2)

def catalog (canvas : Canvas) : Catalog where
  kinds := .ofList [
    ("Circle", {
      properties := .ofList [("x", horizontal canvas), ("y", vertical canvas),
        ("r", uniform 20 100), ("color", color), ("strokeStyle", stroke)]
      defaultConstraints := ["minSize", "maxSize"] }),
    ("Rectangle", {
      properties := .ofList [("x", horizontal canvas), ("y", vertical canvas),
        ("w", uniform 20 200), ("h", uniform 20 200), ("color", color),
        ("strokeStyle", stroke)]
      defaultConstraints := ["minSize", "maxSize"] }),
    ("Text", {
      properties := .ofList [("x", horizontal canvas), ("y", vertical canvas),
        ("w", { uniform 0 0 with pending := true }),
        ("h", { uniform 0 0 with pending := true }),
        ("string", fixedText ""), ("fontSize", fixedText "12pt"), ("color", color)] }),
    ("Line", {
      properties := .ofList [("startX", horizontal canvas), ("startY", vertical canvas),
        ("endX", horizontal canvas), ("endY", vertical canvas),
        ("thickness", uniform 1 5), ("color", color), ("style", stroke)] })]

end DiagramEnergy.Standard
