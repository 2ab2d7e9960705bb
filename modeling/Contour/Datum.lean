import Contour.Point
import Contour.Text.Quoted

/-!
# Outside data

Points and numbers reach the kernel as data of any shape: nothing, truth values, integers, numbers,
texts, points, lists and records. What each of them is taken for is decided when it is read.

* `Datum` — the shapes.
* `Datum.shown`, `Datum.shownBare` — a datum as messages show it, nested and on its own.
* `Datum.isNumber`, `Datum.isPoint` — the shapes that are numbers and points already.
* `Datum.items?` — what a datum holds, one after the other.
-/

namespace Contour

/-- A piece of outside data. -/
inductive Datum (α : Type) where
  | null
  | bool (value : Bool)
  | int (value : Int)
  | real (value : α)
  | text (value : String)
  | point (value : Point α)
  | list (items : List (Datum α))
  | record (fields : List (String × Datum α))
  deriving Inhabited

namespace Datum

variable {α : Type}

/-- Whether a datum is a number. Truth values are not. -/
def isNumber : Datum α → Bool
  | int _ | real _ => true
  | _ => false

def isPoint : Datum α → Bool
  | point _ => true
  | _ => false

/-- What a datum holds, one after the other; none for what holds nothing. -/
def items? : Datum α → Option (List (Datum α))
  | list items => some items
  | text s => some (s.toList.map fun c => text (String.singleton c))
  | point p => some [real p.x, real p.y, real p.z]
  | record fields => some (fields.map fun field => text field.1)
  | _ => none

variable [Textual α]

/-- The text of a point inside a message. -/
def pointText (p : Point α) : String :=
  "Point(x=" ++ Textual.shortest p.x ++ ", y=" ++ Textual.shortest p.y ++ ", z=" ++
    Textual.shortest p.z ++ ")"

mutual

/-- A datum as it is shown inside a list: texts are quoted. -/
def shown : Datum α → String
  | null => "None"
  | bool true => "True"
  | bool false => "False"
  | int n => toString n
  | real x => Textual.shortest x
  | text s => Text.quoted s
  | point p => pointText p
  | list items => "[" ++ shownItems items ++ "]"
  | record fields => "\x7b" ++ shownFields fields ++ "\x7d"

def shownItems : List (Datum α) → String
  | [] => ""
  | [d] => shown d
  | d :: rest => shown d ++ ", " ++ shownItems rest

def shownFields : List (String × Datum α) → String
  | [] => ""
  | [(key, d)] => Text.quoted key ++ ": " ++ shown d
  | (key, d) :: rest => Text.quoted key ++ ": " ++ shown d ++ ", " ++ shownFields rest

end

/-- A datum as a message shows it: a text stands bare. -/
def shownBare : Datum α → String
  | text s => s
  | d => shown d

end Datum

end Contour
