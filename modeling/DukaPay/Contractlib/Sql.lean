import Mathlib.Tactic.Common

/-! What a database checks of a statement before it touches a row: the columns that it names, the
types of its parameters, and the texts that it is given for arrays. -/
namespace Contractlib.Sql

/-- A parameter stands where its type follows from the place, or where any type fits. -/
inductive Use
  | typed
  | any

/-- A parameter that is met first where any type fits gets no type there. -/
def Typable : List Nat → List (Nat × Use) → Prop
  | _,[] => True
  | known,(n,.typed) :: uses => Typable (n :: known) uses
  | known,(n,.any) :: uses => n ∈ known ∧ Typable known uses

instance decidableTypable : (known : List Nat) → (uses : List (Nat × Use)) →
    Decidable (Typable known uses)
  | _,[] => .isTrue trivial
  | known,(n,.typed) :: uses => decidableTypable (n :: known) uses
  | known,(_,.any) :: uses =>
    have := decidableTypable known uses
    inferInstanceAs (Decidable (_ ∧ _))

/-- The columns of each table in scope, the columns that are named without a table, and the places
of the parameters in the order in which the statement is analysed. -/
structure Statement where
  tables : List (List String)
  columns : List String
  params : List (Nat × Use)

/-- A column is found if exactly one of the tables has it. -/
def Statement.Finds (s : Statement) (column : String) : Prop :=
  s.tables.countP (column ∈ ·) = 1

def Statement.Accepted (s : Statement) : Prop :=
  (∀ column ∈ s.columns, s.Finds column) ∧ Typable [] s.params

instance (s : Statement) : Decidable s.Accepted :=
  have : DecidablePred s.Finds := fun _ => inferInstanceAs (Decidable (_ = _))
  inferInstanceAs (Decidable (_ ∧ _))

/-- What comes of a statement, which may be refused. -/
def Statement.answer {α : Type} (s : Statement) (refusal effect : α) : α :=
  if s.Accepted then effect else refusal

lemma Statement.answer_refused {α : Type} {s : Statement} (h : ¬ s.Accepted) (refusal effect : α) :
    s.answer refusal effect = refusal := if_neg h

/-- The types of a column that holds several texts, and the texts that each of them reads: an array
begins with a brace, or with its bounds. -/
inductive TextsColumn
  | array
  | json

def startsArray : List Char → Bool
  | '\x7b' :: _ => true
  | '[' :: c :: _ => c.isDigit || c = '+' || c = '-'
  | _ => false

def TextsColumn.reads : TextsColumn → List Char → Bool
  | .array,text => startsArray (text.dropWhile Char.isWhitespace)
  | .json,_ => true

end Contractlib.Sql
