import Mathlib.Data.List.Basic

/-! Export of rows as CSV: the text is read back by RFC 4180, with records that end with a line
feed. -/
namespace DukaPay.Csv
open List

inductive CsvValue (Number : Type)
  | string (text : List Char)
  | number (n : Number)
  | boolean (b : Bool)

def CsvValue.toText {Number : Type} (num : Number → List Char) : CsvValue Number → List Char
  | string text => text
  | number n => num n
  | boolean b => (toString b).toList

/-- The properties of a row; `none` is null or undefined. What a row inherits from its prototype
is no property here. -/
abbrev CsvRow (Number : Type) := List (List Char × Option (CsvValue Number))

def escapeCsvValue (value : List Char) : List Char :=
  if '\x22' ∈ value ∨ ',' ∈ value ∨ '\n' ∈ value ∨ '\r' ∈ value then
    '\x22' :: value.flatMap (fun c => if c = '\x22' then [c,c] else [c]) ++ ['\x22']
  else value

def csvLine (record : List (List Char)) : List Char :=
  intercalate [','] (record.map escapeCsvValue)

variable {Number : Type} (num : Number → List Char)

def cell (row : CsvRow Number) (key : List Char) : List Char :=
  ((row.lookup key).join.map (CsvValue.toText num)).getD []

def rowsToCsv (rows : List (CsvRow Number)) (headers : Option (List (List Char))) : List Char :=
  if rows.isEmpty then
    let headerLine := csvLine (headers.getD [])
    if headerLine.isEmpty then [] else headerLine ++ ['\n']
  else
    let keys := headers.getD (rows.flatMap (·.map Prod.fst)).eraseDups
    let lines := csvLine keys :: rows.map fun row => csvLine (keys.map (cell num row))
    intercalate ['\n'] lines ++ ['\n']

/-- In a field as it stands, in a quoted one, or after a quotation mark in it. -/
inductive Mode
  | plain
  | quoted
  | closing
  deriving DecidableEq

def parse : List Char → Mode → List Char → List (List Char) → Option (List (List (List Char)))
  | [],mode,field,record => if mode = .plain ∧ field = [] ∧ record = [] then some [] else none
  | c :: rest,.quoted,field,record =>
    if c = '\x22' then parse rest .closing field record
    else parse rest .quoted (field ++ [c]) record
  | c :: rest,mode,field,record =>
    if c = ',' then parse rest .plain [] (record ++ [field])
    else if c = '\n' then (parse rest .plain [] []).map ((record ++ [field]) :: ·)
    else if c = '\x22' then
      -- it stands for itself after another one, and opens an empty field
      if mode = .closing then parse rest .quoted (field ++ [c]) record
      else if field = [] then parse rest .quoted [] record else none
    else if mode = .plain ∧ c ≠ '\r' then parse rest .plain (field ++ [c]) record
    else none

variable {v rest field : List Char} {rc rc' : List (List Char)}

lemma parse_plain (h : ¬('\x22' ∈ v ∨ ',' ∈ v ∨ '\n' ∈ v ∨ '\r' ∈ v)) :
    parse (v ++ rest) .plain field rc = parse rest .plain (field ++ v) rc := by
  induction v generalizing field with
  | nil => simp
  | cons c v ih =>
    simp only [mem_cons,not_or] at h ih
    simp [parse,ih,h,Ne.symm]

lemma parse_quoted : parse (v.flatMap (fun c => if c = '\x22' then [c,c] else [c]) ++ '\x22' :: rest)
    .quoted field rc = parse rest .closing (field ++ v) rc := by
  induction v generalizing field with
  | nil => simp [parse]
  | cons c v ih => by_cases hc : c = '\x22' <;> simp_all [parse]

/-- A field, whatever comes after. -/
lemma parse_escape (v rest rc) : ∃ mode ≠ .quoted,
    parse (escapeCsvValue v ++ rest) .plain [] rc = parse rest mode v rc := by
  unfold escapeCsvValue
  split
  · exact ⟨.closing,by decide,by simp [parse,parse_quoted]⟩
  · next h => exact ⟨.plain,by decide,parse_plain h⟩

lemma parse_line : parse (csvLine (v :: rc) ++ '\n' :: rest) .plain [] rc' =
    (parse rest .plain [] []).map ((rc' ++ v :: rc) :: ·) := by
  induction rc generalizing v rc' with
  | nil =>
    obtain ⟨mode,hm,hp⟩ := parse_escape v ('\n' :: rest) rc'
    cases mode <;> simp_all [csvLine,parse]
  | cons v' rc ih =>
    obtain ⟨mode,hm,hp⟩ := parse_escape v (',' :: csvLine (v' :: rc) ++ '\n' :: rest) rc'
    cases mode <;> simp_all [csvLine,parse]

lemma parse_lines {ls} (h : ∀ rc ∈ ls, rc ≠ []) (hl : ls ≠ []) :
    parse (intercalate ['\n'] (ls.map csvLine) ++ ['\n']) .plain [] [] = some ls := by
  induction ls with
  | nil => cases hl rfl
  | cons rc ls ih =>
    obtain ⟨v,rc,rfl⟩ := exists_cons_of_ne_nil (h _ mem_cons_self)
    cases ls with
    | nil => simp [parse_line,parse]
    | cons rc' ls =>
      have := ih (fun r hr => h r (mem_cons_of_mem _ hr)) (by simp)
      simp_all [parse_line]

lemma csvLine_ne_nil (h : v ≠ []) : csvLine (v :: rc) ≠ [] := by
  have he : escapeCsvValue v ≠ [] := by
    unfold escapeCsvValue
    split <;> simp [h]
  cases rc <;> simp [csvLine,he]

/-- **Export**: the text reads back as the headers and the cells of each row. -/
theorem csv_read_back {Number : Type} (num : Number → List Char)
    (rows : List (CsvRow Number)) (headers : List (List Char)) (hh : headers ≠ [])
    (hne : ∀ header ∈ headers, header ≠ []) :
    parse (rowsToCsv num rows (some headers)) .plain [] [] =
      some (headers :: rows.map fun row => headers.map (cell num row)) := by
  have hl := @parse_lines (headers :: rows.map fun row => headers.map (cell num row))
    (by simp [hh]) (by simp)
  cases rows with
  | nil =>
    obtain ⟨v,rc,rfl⟩ := exists_cons_of_ne_nil hh
    have hv := @csvLine_ne_nil v rc (hne v mem_cons_self)
    simp_all [rowsToCsv]
  | cons row rows => simpa [rowsToCsv,Function.comp_def] using hl

theorem csv_read_back_quoted :
    parse (rowsToCsv id [[(['a'],some (.string ['\x22',','])),(['b'],none)]]
    (some [['a'],['b']])) .plain [] [] =
    some [[['a'],['b']],[['\x22',','],[]]] :=
  csv_read_back id _ _ (by simp) (by decide)

end DukaPay.Csv
