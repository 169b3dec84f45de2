import Annals.Proofs.Numerals
import Annals.Sql.Row
import Annals.Sql.Statement

/-!
A statement is read back from its text.  The text is cut at its placeholders,
and what stands in front of a placeholder, or at the same place in the list of
columns, says for which column its parameter is.  Every column of a table has
exactly one placeholder in an insert and in an update, so that a list of values
is given to the columns in the same way whether parameters are taken in their
order or by their number.
-/

namespace Annals.Sql

open Annals.Text

/-- A place in the text of a statement at which a parameter is put. -/
inductive Placeholder where
  /-- The next parameter, in the order of the text. -/
  | next
  | numbered (n : Nat)
  deriving DecidableEq, Repr

namespace Placeholder

def text : Placeholder → List Char
  | next => ['?']
  | numbered n => '$' :: Nat.toDigits 10 n

/-- A text cut at its placeholders: the text in front of them, and each of them
with the text behind it, up to the next one. -/
def cut : List Char → List Char × List (Placeholder × List Char)
  | [] => ([], [])
  | c :: cs =>
    let rest := cut cs
    if c = '?' then ([], (next, rest.1) :: rest.2)
    else if c = '$' then
      let number := valueOf 10 (rest.1.takeWhile Char.isDigit)
      ([], (numbered number, rest.1.dropWhile Char.isDigit) :: rest.2)
    else (c :: rest.1, rest.2)

/-- The placeholders of a text, from left to right. -/
def inText (text : String) : List Placeholder :=
  (cut text.toList).2.map Prod.fst

/-- The value that a placeholder stands for, given how many placeholders are in
front of it. -/
def pick (values : List Value) (position : Nat) : Placeholder → Option Value
  | next => values[position]?
  | numbered 0 => none
  | numbered (n + 1) => values[n]?

/-- No sign of a placeholder is in a text. -/
def Absent (cs : List Char) : Prop := ∀ c ∈ cs, c ≠ '?' ∧ c ≠ '$'

instance (cs : List Char) : Decidable (Absent cs) :=
  List.decidableBAll (fun c => c ≠ '?' ∧ c ≠ '$') cs

theorem absent_append {cs cs' : List Char} : Absent (cs ++ cs') ↔ Absent cs ∧
    Absent cs' :=
  List.forall_mem_append

theorem absent_digits (n : Nat) : Absent (Nat.toDigits 10 n) := by
  intro c hc
  have hdigit := isDigit_toDigits n c hc
  constructor <;> rintro rfl <;> exact absurd hdigit (by decide)

theorem cut_append {cs : List Char} (h : Absent cs) (rest : List Char) :
    cut (cs ++ rest) = (cs ++ (cut rest).1, (cut rest).2) := by
  induction cs with
  | nil => rfl
  | cons c cs ih =>
      obtain ⟨hc, hcs⟩ := List.forall_mem_cons.mp h
      rw [List.cons_append, cut, ih hcs]
      simp only [if_neg hc.1, if_neg hc.2]
      rfl

theorem cut_text_append (mark : Placeholder) {rest : List Char}
    (h : Closed (cut rest).1) :
    cut (mark.text ++ rest) = ([], (mark, (cut rest).1) :: (cut rest).2) := by
  cases mark with
  | next => rfl
  | numbered n =>
      have hdigits := isDigit_toDigits n
      have htake := takeWhile_digits hdigits h
      have hdrop : (Nat.toDigits 10 n ++ (cut rest).1).dropWhile Char.isDigit =
          (cut rest).1 := by
        rw [List.dropWhile_append_of_pos hdigits]
        cases hrest : (cut rest).1 with
        | nil => rfl
        | cons c cs =>
            exact List.dropWhile_cons_of_neg
              (by simp [h c (by rw [hrest]; rfl)])
      rw [text, List.cons_append, cut, cut_append (absent_digits n)]
      simp only [if_neg (show ¬ '$' = '?' by decide), if_true, htake, hdrop,
        valueOf_toDigits]

def joined (pieces : List (Placeholder × List Char)) : List Char :=
  pieces.flatMap fun piece => piece.1.text ++ piece.2

/-- A text is cut into the pieces of which it has been made. -/
theorem cut_append_joined {front : List Char} (hfront : Absent front)
    {pieces : List (Placeholder × List Char)}
    (h : ∀ piece ∈ pieces, Absent piece.2 ∧ Closed piece.2) :
    cut (front ++ joined pieces) = (front, pieces) := by
  induction pieces generalizing front with
  | nil =>
      rw [cut_append hfront]; exact congrArg (·, []) (List.append_nil front)
  | cons piece pieces ih =>
      obtain ⟨⟨habsent, hclosed⟩, hpieces⟩ := List.forall_mem_cons.mp h
      have hback := ih habsent hpieces
      rw [cut_append hfront, joined, List.flatMap_cons, List.append_assoc,
        cut_text_append]
      · rw [← joined, hback, List.append_nil]
      · rwa [← joined, hback]

end Placeholder

namespace Dialect

/-- The placeholder of a parameter, the first of which has the number one. -/
def mark (d : Dialect) (n : Nat) : Placeholder :=
  match d with
  | postgres => .numbered n
  | _ => .next

def marks (d : Dialect) (count : Nat) : List Placeholder :=
  (List.range count).map fun n => d.mark (n + 1)

theorem toList_placeholder (d : Dialect) (n : Nat) :
    (d.placeholder n).toList = (d.mark n).text := by
  cases d with
  | postgres => simp [placeholder, mark, Placeholder.text]
  | derby | hsqldb | sqlite => exact String.toList_ofList

theorem pick_mark (d : Dialect) (values : List Value) (n : Nat) :
    (d.mark (n + 1)).pick values n = values[n]? := by
  cases d <;> rfl

end Dialect

/-- What a statement does with its parameters: the columns that it sets, and the
column by which it chooses the row. -/
structure Placement (α : Type) where
  assigned : List (String × α)
  key? : Option (String × α) := none
  deriving DecidableEq

namespace Placement

open Placeholder

def entries {α : Type} (p : Placement α) : List (String × α) :=
  p.assigned ++ p.key?.toList

/-- What is left of a text without what it has to begin and to end with. -/
def between (opening closing : String) (cs : List Char) : Option (List Char) :=
  (cs.dropPrefix? opening.toList).bind fun rest =>
    rest.dropSuffix? closing.toList

def listed (cs : List Char) : Option (List String) :=
  ((' ' :: cs).splitOn ',').mapM fun name =>
    (name.dropPrefix? [' ']).map String.ofList

/-- Reads an insert into a table: each column of the list takes the parameter at
its place among the values. -/
def ofInsert (table text : String) : Option (Placement Placeholder) := do
  let (front, marks) := cut text.toList
  let columns ← between ("INSERT INTO " ++ table ++ " (") ") VALUES (" front
  let names ← listed columns
  if marks.map Prod.snd = List.replicate (names.length - 1) ", ".toList ++
    [")".toList] then
    return { assigned := names.zip (marks.map Prod.fst) }
  else none

/-- Reads assignments of columns and, last, the condition on the key.  A column
stands in front of its placeholder. -/
def ofAssignments (separator : String) (front : List Char) :
    List (Placeholder × List Char) → Option (Placement Placeholder)
  | [] => none
  | [(mark, back)] => do
    let key ← between " WHERE " " = " front
    if back = [] then
      return { assigned := [], key? := some (String.ofList key, mark) }
    else
      none
  | (mark, back) :: marks => do
    let column ← between separator " = " front
    let rest ← ofAssignments ", " back marks
    return { rest with assigned := (String.ofList column, mark) ::
      rest.assigned }

theorem ofAssignments_singleton (separator : String) (front : List Char)
    (piece : Placeholder × List Char) :
    ofAssignments separator front [piece] =
      (between " WHERE " " = " front).bind fun key =>
        if piece.2 = [] then
          some { assigned := [], key? := some (String.ofList key, piece.1) }
        else none := rfl

theorem ofAssignments_cons (separator : String) (front : List Char)
    (piece piece' : Placeholder × List Char)
    (pieces : List (Placeholder × List Char)) :
    ofAssignments separator front (piece :: piece' :: pieces) =
      (between separator " = " front).bind fun column =>
        (ofAssignments ", " piece.2 (piece' :: pieces)).bind fun rest =>
          some { rest with assigned := (String.ofList column, piece.1) ::
            rest.assigned } := rfl

def ofUpdate (table text : String) : Option (Placement Placeholder) := do
  let (front, marks) := cut text.toList
  let front ← front.dropPrefix? ("UPDATE " ++ table ++ " SET ").toList
  ofAssignments "" front marks

/-- The value for a column, given how many placeholders are in front of its
own. -/
def fill (values : List Value) (entry : (String × Placeholder) × Nat) :
    Option (String × Value) :=
  (entry.1.2.pick values entry.2).map fun v => (entry.1.1, v)

/-- Puts values in the places of the parameters, of which there have to be as
many. -/
def bind (p : Placement Placeholder) (values : List Value) :
    Option (Placement Value) :=
  if p.entries.length = values.length then do
    let assigned ← p.assigned.zipIdx.mapM (fill values)
    let key? ← p.key?.mapM fun key => fill values (key, p.assigned.length)
    return { assigned, key? }
  else none

theorem dropPrefix?_append (opening cs : List Char) :
    (opening ++ cs).dropPrefix? opening = some cs :=
  List.dropPrefix?_eq_some_iff.mpr ⟨opening, rfl, beq_self_eq_true opening⟩

theorem between_append (opening closing : String) (cs : List Char) :
    between opening closing (opening.toList ++ cs ++ closing.toList) =
      some cs := by
  unfold between
  rw [List.append_assoc, dropPrefix?_append]
  exact List.dropSuffix?_eq_some_iff.mpr ⟨closing.toList, rfl,
    beq_self_eq_true closing.toList⟩

/-- The list of the values of an insert, from its first placeholder on. -/
def valueList (mark : Placeholder) :
    List Placeholder → List (Placeholder × List Char)
  | [] => [(mark, ")".toList)]
  | other :: marks => (mark, ", ".toList) :: valueList other marks

theorem joined_valueList (mark : Placeholder) (marks : List Placeholder) :
    joined (valueList mark marks) =
      ", ".toList.intercalate ((mark :: marks).map text) ++ ")".toList := by
  induction marks generalizing mark with
  | nil => simp [valueList, joined]
  | cons other marks ih =>
      have hrest := ih other
      rw [List.map_cons] at hrest
      rw [valueList, joined, List.flatMap_cons, ← joined, hrest, List.map_cons,
        List.map_cons, List.intercalate_cons_cons]
      simp only [List.append_assoc]

theorem map_valueList (mark : Placeholder) (marks : List Placeholder) :
    (valueList mark marks).map Prod.fst = mark :: marks ∧
      (valueList mark marks).map Prod.snd =
        List.replicate marks.length ", ".toList ++ [")".toList] := by
  induction marks generalizing mark with
  | nil => exact ⟨rfl, rfl⟩
  | cons other marks ih =>
      exact ⟨congrArg (mark :: ·) (ih other).1,
        congrArg (", ".toList :: ·) (ih other).2⟩

theorem closed_valueList {mark : Placeholder} {marks : List Placeholder} :
    ∀ piece ∈ valueList mark marks, Absent piece.2 ∧ Closed piece.2 := by
  intro piece hpiece
  have hback : piece.2 = ", ".toList ∨ piece.2 = ")".toList := by
    have hmem := List.mem_map_of_mem (f := Prod.snd) hpiece
    rw [(map_valueList mark marks).2, List.mem_append,
      List.mem_singleton] at hmem
    exact hmem.imp_left List.eq_of_mem_replicate
  rcases hback with hback | hback <;> rw [hback] <;>
    exact ⟨by decide, fun c hc => by cases hc; rfl⟩

theorem intercalate_blank (names : List String) (h : names ≠ []) :
    ' ' :: ", ".toList.intercalate (names.map String.toList) =
      [','].intercalate (names.map fun name => ' ' :: name.toList) := by
  induction names with
  | nil => exact absurd rfl h
  | cons name names ih =>
      cases names with
      | nil => simp
      | cons name' names =>
          have hrest := ih (List.cons_ne_nil name' names)
          simp only [List.map_cons, List.intercalate_cons_cons] at hrest ⊢
          rw [← hrest]
          simp

theorem listed_intercalate {names : List String} (h : names ≠ [])
    (hcomma : ∀ name ∈ names, ',' ∉ name.toList) :
    listed (", ".intercalate names).toList = some names := by
  have hblank : (fun cs : List Char =>
      (cs.dropPrefix? [' ']).map String.ofList) ∘
        (fun name : String => ' ' :: name.toList) = fun name =>
          pure (id name) := by
      funext name
      change (([' '] ++ name.toList).dropPrefix? [' ']).map String.ofList =
        some name
      rw [dropPrefix?_append, Option.map_some, String.ofList_toList]
  unfold listed
  rw [String.toList_intercalate, intercalate_blank names h,
    List.splitOn_intercalate]
  · rw [List.mapM_map, hblank, List.mapM_pure, List.map_id]
    rfl
  · simpa using hcomma
  · simpa using h

theorem absent_intercalate {names : List String}
    (h : ∀ name ∈ names, Absent name.toList) :
    Absent (", ".intercalate names).toList := by
  rw [String.toList_intercalate]
  induction names with
  | nil => nofun
  | cons name names ih =>
      obtain ⟨hname, hnames⟩ := List.forall_mem_cons.mp h
      cases names with
      | nil => simpa using hname
      | cons name' names =>
          rw [List.map_cons, List.map_cons, List.intercalate_cons_cons,
            absent_append, absent_append]
          exact ⟨⟨hname, by decide⟩, ih hnames⟩

end Placement

/-- The name of a table or column holds no sign of a placeholder and no
comma. -/
def Clear (name : String) : Prop :=
  ∀ c ∈ name.toList, c ≠ '?' ∧ c ≠ '$' ∧ c ≠ ','

instance (name : String) : Decidable (Clear name) :=
  List.decidableBAll (fun c => c ≠ '?' ∧ c ≠ '$' ∧ c ≠ ',') name.toList

theorem Clear.absent {name : String} (h : Clear name) :
    Placeholder.Absent name.toList :=
  fun c hc => ⟨(h c hc).1, (h c hc).2.1⟩

/-- A table with columns whose names can be told apart from the rest of a
statement. -/
structure Table.Readable (t : Table) : Prop where
  nonempty : t.columns ≠ []
  name : Clear t.name
  columns : ∀ c ∈ t.columns, Clear c.name

theorem Table.Readable.columnNames {t : Table} (h : t.Readable) :
    ∀ name ∈ t.columnNames, Clear name := by
  intro name hname
  obtain ⟨c, hc, rfl⟩ := List.mem_map.mp hname
  exact h.columns c hc

theorem Table.selectList_none (t : Table) :
    t.selectList none = ", ".intercalate t.columnNames := by
  unfold selectList
  rw [List.map_id'']
  exact fun name => rfl

theorem Dialect.map_placeholders (d : Dialect) (count : Nat) :
    (d.placeholders count).map String.toList =
      (d.marks count).map Placeholder.text := by
  unfold placeholders marks
  rw [List.map_map, List.map_map]
  exact List.map_congr_left fun n _ => d.toList_placeholder (n + 1)

theorem Dialect.marks_succ (d : Dialect) (count : Nat) :
    d.marks (count + 1) = d.mark 1 :: (List.range count).map fun n =>
      d.mark (n + 2) := by
  unfold marks
  rw [List.range_succ_eq_map, List.map_cons, List.map_map]
  rfl

namespace Placement

open Placeholder Statement

theorem cut_renderInsert (d : Dialect) {t : Table} (h : t.Readable) :
    ∃ marks, cut (renderInsert d t).toList =
      (("INSERT INTO " ++ t.name ++ " (").toList ++
        (t.selectList none).toList ++ ") VALUES (".toList, marks) ∧
      marks.map Prod.fst = d.marks t.columns.length ∧
      marks.map Prod.snd = List.replicate (t.columns.length - 1) ", ".toList ++
        [")".toList] := by
  obtain ⟨key, others, hcolumns⟩ := List.exists_cons_of_ne_nil h.nonempty
  have hmarks := d.marks_succ others.length
  obtain ⟨hfirst, hsecond⟩ :=
    map_valueList (d.mark 1) ((List.range others.length).map fun n =>
      d.mark (n + 2))
  have hfront : Absent
      (("INSERT INTO " ++ t.name ++ " (").toList ++
        (t.selectList none).toList ++ ") VALUES (".toList) := by
    rw [t.selectList_none]
    simp only [String.toList_append, absent_append]
    exact ⟨⟨⟨⟨by decide, h.name.absent⟩, by decide⟩,
      absent_intercalate fun name hname =>
        (h.columnNames name hname).absent⟩, by decide⟩
  refine ⟨valueList (d.mark 1) ((List.range others.length).map fun n =>
    d.mark (n + 2)), ?_, ?_, ?_⟩
  · rw [← cut_append_joined hfront]
    · rw [joined_valueList, ← hmarks, ← d.map_placeholders,
        ← String.toList_intercalate]
      unfold renderInsert
      rw [hcolumns]
      simp only [String.toList_append, List.append_assoc]
      rfl
    · exact closed_valueList
  · rw [hfirst, hcolumns, List.length_cons, hmarks]
  · rw [hsecond, hcolumns]
    simp

theorem inText_insert (d : Dialect) {t : Table} (h : t.Readable) :
    inText ((Statement.insert t).render d) = d.marks t.columns.length := by
  obtain ⟨marks, hcut, hfirst, -⟩ := cut_renderInsert d h
  unfold inText render
  rw [hcut, hfirst]

theorem ofInsert_render (d : Dialect) {t : Table} (h : t.Readable) :
    ofInsert t.name ((Statement.insert t).render d) =
      some { assigned := t.columnNames.zip (d.marks t.columns.length) } := by
  obtain ⟨marks, hcut, hfirst, hsecond⟩ := cut_renderInsert d h
  have hnames : t.columnNames ≠ [] := by
    simpa [Table.columnNames] using h.nonempty
  have hlisted : listed (t.selectList none).toList = some t.columnNames := by
    rw [t.selectList_none]
    exact listed_intercalate hnames fun name hname hc =>
      ((h.columnNames name hname) _ hc).2.2 rfl
  unfold ofInsert render
  rw [hcut]
  dsimp only
  rw [between_append, Option.bind_eq_bind, Option.bind_some, hlisted,
    Option.bind_eq_bind, Option.bind_some, hfirst, hsecond, Table.columnNames,
    List.length_map, if_pos rfl]
  rfl

/-- The assignments of an update and the condition on its key: the text up to
the first placeholder, and each of the placeholders with the text behind it. -/
def assignmentList (key : String × Placeholder) (separator : String) :
    List (String × Placeholder) → List Char × List (Placeholder × List Char)
  | [] => (" WHERE ".toList ++ key.1.toList ++ " = ".toList, [(key.2, [])])
  | (name, mark) :: entries =>
    let rest := assignmentList key ", " entries
    (separator.toList ++ name.toList ++ " = ".toList, (mark, rest.1) :: rest.2)

theorem assignmentList_cons (key : String × Placeholder) (separator : String)
    (entry : String × Placeholder) (entries : List (String × Placeholder)) :
    assignmentList key separator (entry :: entries) =
      (separator.toList ++ entry.1.toList ++ " = ".toList,
        (entry.2, (assignmentList key ", " entries).1) ::
          (assignmentList key ", " entries).2) := rfl

theorem ofAssignments_assignmentList (key : String × Placeholder)
    (separator : String) (entries : List (String × Placeholder)) :
    ofAssignments separator (assignmentList key separator entries).1
        (assignmentList key separator entries).2 =
      some { assigned := entries, key? := some key } := by
  induction entries generalizing separator with
  | nil =>
      change ofAssignments separator
        (" WHERE ".toList ++ key.1.toList ++ " = ".toList) [(key.2, [])] = _
      rw [ofAssignments_singleton, between_append, Option.bind_some, if_pos rfl,
        String.ofList_toList]
  | cons entry entries ih =>
      have hrest := ih ", "
      obtain ⟨piece, pieces, hpieces⟩ :
          ∃ piece pieces, (assignmentList key ", " entries).2 =
            piece :: pieces := by
        cases entries <;> exact ⟨_, _, rfl⟩
      rw [hpieces] at hrest
      rw [assignmentList_cons, hpieces, ofAssignments_cons, between_append,
        hrest, Option.bind_some, Option.bind_some, String.ofList_toList]

theorem joined_assignmentList (key : String × Placeholder) (separator : String)
    (entry : String × Placeholder) (entries : List (String × Placeholder)) :
    (assignmentList key separator (entry :: entries)).1 ++
        joined (assignmentList key separator (entry :: entries)).2 =
      separator.toList ++ ", ".toList.intercalate
        ((entry :: entries).map fun entry =>
          entry.1.toList ++ " = ".toList ++ entry.2.text) ++
        (" WHERE ".toList ++ key.1.toList ++ " = ".toList ++ key.2.text) := by
  rw [assignmentList_cons, joined, List.flatMap_cons, ← joined]
  induction entries generalizing entry separator with
  | nil =>
      change _ ++ (_ ++ (" WHERE ".toList ++ key.1.toList ++ " = ".toList) ++
        (key.2.text ++ [] ++ [])) = _
      rw [List.map_singleton, List.intercalate_singleton]
      simp only [List.append_assoc, List.append_nil]
  | cons other entries ih =>
      have hrest := ih ", " other
      rw [List.map_cons] at hrest
      rw [assignmentList_cons, List.map_cons, List.map_cons,
        List.intercalate_cons_cons]
      simp only [List.append_assoc] at hrest ⊢
      rw [joined, List.flatMap_cons, ← joined]
      simp only [List.append_assoc]
      rw [hrest]

theorem joined_assignments (key : String × Placeholder)
    (entries : List (String × Placeholder)) :
    (assignmentList key "" entries).1 ++
      joined (assignmentList key "" entries).2 =
      ", ".toList.intercalate (entries.map fun entry =>
          entry.1.toList ++ " = ".toList ++ entry.2.text) ++
        (" WHERE ".toList ++ key.1.toList ++ " = ".toList ++ key.2.text) := by
  cases entries with
  | nil =>
      change " WHERE ".toList ++ key.1.toList ++ " = ".toList ++
        (key.2.text ++ [] ++ []) = _
      rw [List.append_nil, List.append_nil, List.map_nil, List.intercalate_nil,
        List.nil_append]
  | cons entry entries => exact joined_assignmentList key "" entry entries

theorem closed_assignmentList {key : String × Placeholder}
    (hkey : Absent key.1.toList) {entries : List (String × Placeholder)}
    (h : ∀ entry ∈ entries, Absent entry.1.toList)
    {separator : String} (hseparator : Absent separator.toList) :
    Absent (assignmentList key separator entries).1 ∧
      ∀ piece ∈ (assignmentList key separator entries).2, Absent piece.2 ∧
        Closed piece.2 := by
  induction entries generalizing separator with
  | nil =>
      refine ⟨?_, ?_⟩
      · change Absent (" WHERE ".toList ++ key.1.toList ++ " = ".toList)
        rw [absent_append, absent_append]
        exact ⟨⟨by decide, hkey⟩, by decide⟩
      · rintro piece hpiece
        rw [List.mem_singleton.mp hpiece]
        exact ⟨nofun, nofun⟩
  | cons entry entries ih =>
      obtain ⟨hentry, hentries⟩ := List.forall_mem_cons.mp h
      obtain ⟨habsent, hpieces⟩ :=
        ih hentries (show Absent ", ".toList by decide)
      rw [assignmentList_cons]
      refine ⟨?_, List.forall_mem_cons.mpr ⟨⟨habsent, ?_⟩, hpieces⟩⟩
      · rw [absent_append, absent_append]
        exact ⟨⟨hseparator, hentry⟩, by decide⟩
      · cases entries <;> exact fun c hc => by cases hc; rfl

theorem map_assignments (d : Dialect) (others : List Column) :
    ((others.zip (d.placeholders others.length)).map
      fun (column, placeholder) =>
        column.name ++ " = " ++ placeholder).map String.toList =
      ((others.map Column.name).zip (d.marks others.length)).map fun entry =>
        entry.1.toList ++ " = ".toList ++ entry.2.text := by
  unfold Dialect.placeholders Dialect.marks
  rw [List.zip_map_right, List.zip_map, List.map_map, List.map_map,
    List.map_map]
  refine List.map_congr_left fun entry _ => ?_
  change (entry.1.name ++ " = " ++ d.placeholder (entry.2 + 1)).toList = _
  rw [String.toList_append, String.toList_append, d.toList_placeholder]
  rfl

theorem cut_renderUpdate (d : Dialect) {t : Table} {key : Column}
    {others : List Column} (hcolumns : t.columns = key :: others)
    (h : t.Readable) :
    let read := assignmentList (key.name, d.mark (others.length + 1)) ""
      ((others.map Column.name).zip (d.marks others.length))
    cut ((Statement.update t).render d).toList =
      (("UPDATE " ++ t.name ++ " SET ").toList ++ read.1, read.2) := by
  intro read
  have hnames : ∀ c ∈ key :: others, Absent c.name.toList := fun c hc =>
    (h.columns c (hcolumns ▸ hc)).absent
  obtain ⟨habsent, hpieces⟩ :
      Absent read.1 ∧ ∀ piece ∈ read.2, Absent piece.2 ∧ Closed piece.2 := by
    refine closed_assignmentList (hnames key List.mem_cons_self)
      (fun entry hentry => ?_) nofun
    obtain ⟨c, hc, hname⟩ := List.mem_map.mp (List.of_mem_zip hentry).1
    rw [← hname]
    exact hnames c (List.mem_cons_of_mem key hc)
  have hrender : ((Statement.update t).render d).toList =
      ("UPDATE " ++ t.name ++ " SET ").toList ++ read.1 ++ joined read.2 := by
    rw [List.append_assoc, joined_assignments, ← map_assignments,
      ← d.toList_placeholder]
    change ((renderUpdate? d t).getD "").toList = _
    unfold renderUpdate?
    rw [hcolumns]
    simp only [Option.getD_some, String.toList_append,
      String.toList_intercalate, List.append_assoc]
  rw [hrender, cut_append_joined]
  · rw [String.toList_append, String.toList_append, absent_append,
      absent_append, absent_append]
    exact ⟨⟨⟨by decide, h.name.absent⟩, by decide⟩, habsent⟩
  · exact hpieces

theorem map_assignmentList (key : String × Placeholder) (separator : String)
    (entries : List (String × Placeholder)) :
    (assignmentList key separator entries).2.map Prod.fst =
      entries.map Prod.snd ++ [key.2] := by
  induction entries generalizing separator with
  | nil => rfl
  | cons entry entries ih =>
      rw [assignmentList_cons, List.map_cons, ih]
      rfl

theorem inText_update (d : Dialect) {t : Table} (h : t.Readable) :
    inText ((Statement.update t).render d) = d.marks t.columns.length := by
  obtain ⟨key, others, hcolumns⟩ := List.exists_cons_of_ne_nil h.nonempty
  have hlength : (d.marks others.length).length =
      (others.map Column.name).length := by
    simp [Dialect.marks]
  unfold inText
  rw [cut_renderUpdate d hcolumns h, hcolumns, List.length_cons]
  dsimp only
  rw [map_assignmentList, List.map_snd_zip (Nat.le_of_eq hlength)]
  unfold Dialect.marks
  rw [List.range_succ, List.map_append]
  rfl

theorem ofUpdate_render (d : Dialect) {t : Table} {key : Column}
    {others : List Column} (hcolumns : t.columns = key :: others)
    (h : t.Readable) :
    ofUpdate t.name ((Statement.update t).render d) =
      some { assigned := (others.map Column.name).zip (d.marks others.length)
             key? := some (key.name, d.mark (others.length + 1)) } := by
  unfold ofUpdate
  rw [cut_renderUpdate d hcolumns h]
  dsimp only
  rw [dropPrefix?_append, Option.bind_eq_bind, Option.bind_some,
    ofAssignments_assignmentList]

/-- A column takes the placeholder that stands at its place, not the one with
its number. -/
example : ofInsert "t" "INSERT INTO t (id, a) VALUES ($2, $1)" =
    some { assigned := [("id", .numbered 2), ("a", .numbered 1)] } := by decide

example : ofUpdate "t" "UPDATE t SET a = $2 WHERE id = $1" =
    some { assigned := [("a", .numbered 2)],
           key? := some ("id", .numbered 1) } := by decide

theorem mapM_fill (d : Dialect) {names : List String} {values : List Value}
    (h : names.length = values.length) (front back : List Value) :
    ((names.zip ((List.range' front.length names.length).map fun n =>
      d.mark (n + 1))).zipIdx
        front.length).mapM (fill (front ++ values ++ back)) =
          some (names.zip values) := by
  induction names generalizing values front with
  | nil => rfl
  | cons name names ih =>
      cases values with
      | nil => cases h
      | cons v values =>
          have hrest := ih (Nat.succ.inj h) (front ++ [v])
          have hfill : fill (front ++ v :: values ++ back)
              ((name, d.mark (front.length + 1)),
              front.length) = some (name, v) := by
            unfold fill
            dsimp only
            rw [d.pick_mark, List.append_assoc,
              List.getElem?_append_right (Nat.le_refl _), Nat.sub_self]
            rfl
          rw [List.length_append, List.length_singleton,
            List.append_assoc front [v] values, List.singleton_append] at hrest
          rw [List.length_cons, List.range'_succ, List.map_cons,
            List.zip_cons_cons, List.zipIdx_cons, List.mapM_cons, hfill,
            Option.bind_eq_bind, Option.bind_some, hrest]
          rfl

theorem bind_insert (d : Dialect) {names : List String} {values : List Value}
    (h : names.length = values.length) :
    bind { assigned := names.zip (d.marks names.length) } values =
      some { assigned := names.zip values } := by
  have hfill := mapM_fill d h [] []
  rw [List.append_nil, List.nil_append, List.length_nil,
    ← List.range_eq_range'] at hfill
  have hlength : (names.zip (d.marks names.length)).length = values.length := by
    simp [Dialect.marks, h]
  unfold bind entries
  dsimp only
  rw [Option.toList_none, List.append_nil, if_pos hlength, Dialect.marks, hfill]
  rfl

theorem bind_update (d : Dialect) {names : List String} {values : List Value}
    (key : String) (last : Value) (h : names.length = values.length) :
    bind { assigned := names.zip (d.marks names.length),
           key? := some (key, d.mark (names.length + 1)) } (values ++ [last]) =
      some { assigned := names.zip values, key? := some (key, last) } := by
  have hfill := mapM_fill d h [] [last]
  rw [List.nil_append, List.length_nil, ← List.range_eq_range'] at hfill
  have hlength : (names.zip (d.marks names.length)).length = values.length := by
    simp [Dialect.marks, h]
  have hkey : fill (values ++ [last]) ((key, d.mark (names.length + 1)),
      values.length) = some (key, last) := by
    unfold fill
    dsimp only
    rw [h, d.pick_mark, List.getElem?_append_right (Nat.le_refl _),
      Nat.sub_self]
    rfl
  unfold bind entries
  dsimp only
  rw [if_pos (by simp [hlength]), hlength, Option.mapM_some, hkey,
    Dialect.marks, hfill]
  rfl

end Placement

/-- Which columns an insert or an update sets to which values, as its text in a
dialect says. -/
def Statement.placed? (d : Dialect) (values : List Value) (s : Statement) :
    Option (Placement Value) :=
  match s with
  | .insert t => (Placement.ofInsert t.name (s.render d)).bind (·.bind values)
  | .update t => (Placement.ofUpdate t.name (s.render d)).bind (·.bind values)
  | _ => none

namespace Table.Readable

variable {t : Table} {values : List Value}

theorem placed_insert (h : t.Readable) (d : Dialect)
    (hlength : t.columns.length = values.length) :
    (Statement.insert t).placed? d values =
      some { assigned := t.columnNames.zip values } := by
  have hnames : t.columnNames.length = t.columns.length := List.length_map _
  unfold Statement.placed?
  dsimp only
  rw [Placement.ofInsert_render d h, Option.bind_some, ← hnames,
    Placement.bind_insert d (hnames.trans hlength)]

theorem placed_update (h : t.Readable) (d : Dialect) {key : Column}
    {others : List Column} (hcolumns : t.columns = key :: others)
    (hlength : others.length = values.length) (last : Value) :
    (Statement.update t).placed? d (values ++ [last]) =
      some { assigned := (others.map Column.name).zip values,
             key? := some (key.name, last) } := by
  have hnames : (others.map Column.name).length = others.length :=
    List.length_map _
  unfold Statement.placed?
  dsimp only
  rw [Placement.ofUpdate_render d hcolumns h, Option.bind_some, ← hnames,
    Placement.bind_update d key.name last (hnames.trans hlength)]

end Table.Readable

end Annals.Sql
