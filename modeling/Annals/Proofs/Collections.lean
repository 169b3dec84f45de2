import Annals.Proofs.Rearrangement

namespace Annals

namespace Alias

theorem sameRecord_comm (a b : Alias) : a.sameRecord b = b.sameRecord a := by
  unfold sameRecord
  cases a.ident.id? with
  | none =>
      cases b.ident.id? <;>
        simp only [BEq.comm (a := a.name), BEq.comm (a := a.email)]
  | some ida =>
      cases b.ident.id? with
      | none => simp only [BEq.comm (a := a.name), BEq.comm (a := a.email)]
      | some idb => exact BEq.comm

theorem sameRecord_self (a : Alias) : a.sameRecord a = true := by
  unfold sameRecord
  cases a.ident.id? <;> simp

/-- Two saved aliases may both denote the same record as an unsaved one. -/
theorem sameRecord_not_trans :
    ∃ a b c : Alias, a.sameRecord b = true ∧ b.sameRecord c = true ∧
      a.sameRecord c = false :=
  ⟨{ ident := .ofValue 1, name := "ada", email := "ada@example.org" },
    { name := "ada", email := "ada@example.org" },
    { ident := .ofValue 2, name := "ada",
      email := "ada@example.org" }, by decide⟩

/-- The first alias is not saved and has the name and the address of the second
one. -/
def LooksLike (m q : Alias) : Prop :=
  Record.id? m = none ∧ m.name = q.name ∧ m.email = q.email

instance (m q : Alias) : Decidable (m.LooksLike q) :=
  inferInstanceAs (Decidable (_ ∧ _ ∧ _))

theorem sameRecord_of_saved {m q : Alias} {id : EntityId}
    (hid : Record.id? q = some id) :
    m.sameRecord q = true ↔ Record.id? m = some id ∨ m.LooksLike q := by
  obtain ⟨⟨_⟩, name, email⟩ := q
  cases (hid : _ = some id)
  obtain ⟨⟨_ | other⟩, name', email'⟩ := m
  · simp [sameRecord, LooksLike, Record.id?, Record.ident]
  · simp [sameRecord, LooksLike, Record.id?, Record.ident]

end Alias

namespace Identity

theorem removeAlias_of_none {i : Identity} {a : Alias}
    (h : ∀ m ∈ i.aliases, m.sameRecord a = false) :
    i.removeAlias a = (none, i) := by
  unfold removeAlias
  rw [List.findIdx?_eq_none_iff.mpr h]

theorem removeAlias_of_append {i : Identity} {a m : Alias}
    {front back : List Alias} (haliases : i.aliases = front ++ m :: back)
    (hfront : ∀ x ∈ front, x.sameRecord a = false)
    (hm : m.sameRecord a = true) :
    i.removeAlias a = (some m, { i with aliases := front ++ back }) := by
  have hindex : i.aliases.findIdx? (·.sameRecord a) = some front.length := by
    rw [haliases, List.findIdx?_append, List.findIdx?_eq_none_iff.mpr hfront,
      List.findIdx?_cons, if_pos hm]
    simp
  unfold removeAlias
  rw [hindex, haliases]
  dsimp only
  rw [List.getElem?_append_right (Nat.le_refl _),
    List.eraseIdx_append_of_length_le (Nat.le_refl _), Nat.sub_self]
  rfl

theorem first_sameRecord (i : Identity) (a : Alias) :
    (∀ m ∈ i.aliases, m.sameRecord a = false) ∨
      ∃ front m back, i.aliases = front ++ m :: back ∧
        (∀ x ∈ front, x.sameRecord a = false) ∧
        m.sameRecord a = true := by
  cases hfind : i.aliases.find? (·.sameRecord a) with
  | none => exact .inl (by simpa using List.find?_eq_none.mp hfind)
  | some m =>
      obtain ⟨hm, front, back, haliases, hfront⟩ :=
        List.find?_eq_some_iff_append.mp hfind
      exact .inr ⟨front, m, back, haliases, by simpa using hfront, hm⟩

theorem removeAlias_eq_none_iff {i : Identity} {a : Alias} :
    i.removeAlias a = (none, i) ↔ ∀ m ∈ i.aliases, m.sameRecord a = false := by
  refine ⟨fun h => ?_, removeAlias_of_none⟩
  rcases i.first_sameRecord a
    with hnone | ⟨front, m, back, haliases, hfront, hm⟩
  · exact hnone
  · rw [removeAlias_of_append haliases hfront hm] at h
    cases h

theorem removeAlias_eq_some_iff {i j : Identity} {a m : Alias} :
    i.removeAlias a = (some m, j) ↔ ∃ front back,
      i.aliases = front ++ m :: back ∧
      (∀ x ∈ front, x.sameRecord a = false) ∧ m.sameRecord a = true ∧
      j = { i with aliases := front ++ back } := by
  constructor
  · intro h
    rcases i.first_sameRecord a
      with hnone | ⟨front, m', back, haliases, hfront, hm⟩
    · rw [removeAlias_of_none hnone] at h
      cases h
    · rw [removeAlias_of_append haliases hfront hm] at h
      cases h
      exact ⟨front, back, haliases, hfront, hm, rfl⟩
  · rintro ⟨front, back, haliases, hfront, hm, rfl⟩
    exact removeAlias_of_append haliases hfront hm

/-- A change that is asked for. -/
inductive Change where
  | add (a : Alias)
  | remove (a : Alias)

/-- What a change has come to. -/
inductive Effect where
  | added (a : Alias)
  | detached (a : Alias)
  | nothing
  deriving DecidableEq

def change (i : Identity) : Change → Effect × Identity
  | .add a =>
    match i.addAlias a with
    | (true, i) => (.added a, i)
    | (false, i) => (.nothing, i)
  | .remove a =>
    match i.removeAlias a with
    | (some m, i) => (.detached m, i)
    | (none, i) => (.nothing, i)

theorem change_add (i : Identity) (a : Alias) :
    i.change (.add a) = match i.addAlias a with
      | (true, i) => (.added a, i)
      | (false, i) => (.nothing, i) := rfl

theorem change_remove (i : Identity) (a : Alias) :
    i.change (.remove a) = match i.removeAlias a with
      | (some m, i) => (.detached m, i)
      | (none, i) => (.nothing, i) := rfl

/-- Makes changes one after the other, and tells what each of them has come
to. -/
def changeAll (i : Identity) : List Change → List Effect × Identity
  | [] => ([], i)
  | c :: changes =>
    let first := i.change c
    let later := first.2.changeAll changes
    (first.1 :: later.1, later.2)

/-- The aliases that have been added and not been detached since, in the order
of the additions. -/
def survivors : List Effect → List Alias
  | [] => []
  | .added a :: later =>
    if .detached a ∈ later then survivors later else a :: survivors later
  | .detached _ :: later => survivors later
  | .nothing :: later => survivors later

theorem survivors_added (effects : List Effect) (a : Alias) :
    survivors (effects ++ [.added a]) = survivors effects ++ [a] := by
  induction effects with
  | nil => rfl
  | cons e effects ih =>
      cases e with
      | added b =>
          simp only [List.cons_append, survivors, ih, List.mem_append,
            List.mem_singleton, reduceCtorEq, or_false]
          split <;> rfl
      | detached _ | nothing => exact ih

theorem survivors_nothing (effects : List Effect) :
    survivors (effects ++ [.nothing]) = survivors effects := by
  induction effects with
  | nil => rfl
  | cons e effects ih =>
      cases e with
      | added b =>
          simp only [List.cons_append, survivors, ih, List.mem_append,
            List.mem_singleton, reduceCtorEq, or_false]
      | detached _ | nothing => exact ih

theorem survivors_detached (effects : List Effect) (m : Alias) :
    survivors (effects ++ [.detached m]) = (survivors effects).filter
      (· ≠ m) := by
  induction effects with
  | nil => rfl
  | cons e effects ih =>
      cases e with
      | added b =>
          simp only [List.cons_append, survivors, ih, List.mem_append,
            List.mem_singleton, Effect.detached.injEq]
          by_cases hmem : Effect.detached b ∈ effects
          · simp [hmem]
          · by_cases hb : b = m
            · subst hb
              simp [hmem]
            · simp [hmem, hb]
      | detached _ | nothing => exact ih

theorem Distinct.sameRecord_of_append {i : Identity} (h : i.Distinct)
    {front back : List Alias} {m x : Alias}
    (haliases : i.aliases = front ++ m :: back) (hx : x ∈ front ++ back) :
    x.sameRecord m = false := by
  unfold Distinct at h
  rw [haliases] at h
  obtain ⟨-, hback, hfront⟩ := List.pairwise_append.mp h
  rcases List.mem_append.mp hx with hx | hx
  · exact hfront x hx m List.mem_cons_self
  · rw [Alias.sameRecord_comm]
    exact (List.pairwise_cons.mp hback).1 x hx

theorem Distinct.change {i : Identity} (h : i.Distinct) (c : Change) :
    (i.change c).2.Distinct := by
  cases c with
  | add a =>
      have hadded := h.addAlias a
      rw [change_add]
      rcases hadd : i.addAlias a with ⟨_ | _, j⟩ <;> rwa [hadd] at hadded
  | remove a =>
      have hremoved := h.removeAlias a
      rw [change_remove]
      rcases hremove : i.removeAlias a with ⟨_ | m, j⟩ <;>
        rwa [hremove] at hremoved

theorem Distinct.aliases_change {i : Identity} (h : i.Distinct)
    {effects : List Effect} (haliases : i.aliases = survivors effects)
    (c : Change) :
    (i.change c).2.aliases = survivors (effects ++ [(i.change c).1]) := by
  cases c with
  | add a =>
      rw [change_add]
      by_cases hnew : ∀ m ∈ i.aliases, m.sameRecord a = false
      · rw [addAlias_eq_true_iff.mpr hnew]
        change i.aliases ++ [a] = _
        rw [survivors_added, haliases]
      · have hfound : ∃ m ∈ i.aliases, m.sameRecord a = true := by
          simpa using hnew
        rw [addAlias_eq_false_iff.mpr hfound]
        exact haliases.trans (survivors_nothing effects).symm
  | remove a =>
      rw [change_remove]
      rcases i.first_sameRecord a
        with hnone | ⟨front, m, back, hsplit, hfront, hm⟩
      · rw [removeAlias_of_none hnone]
        exact haliases.trans (survivors_nothing effects).symm
      · rw [removeAlias_of_append hsplit hfront hm]
        change front ++ back = _
        have hothers : ∀ x ∈ front ++ back, x ≠ m := by
          rintro x hx rfl
          exact absurd x.sameRecord_self
            (Bool.eq_false_iff.mp (h.sameRecord_of_append hsplit hx))
        rw [survivors_detached, ← haliases, hsplit]
        simp only [List.filter_append, List.filter_cons, ne_eq,
          not_true_eq_false, decide_false, Bool.false_eq_true, if_false]
        rw [← List.filter_append]
        exact (List.filter_eq_self.mpr fun x hx =>
          decide_eq_true (hothers x hx)).symm

theorem Distinct.aliases_changeAll {i : Identity} (h : i.Distinct)
    {effects : List Effect} (haliases : i.aliases = survivors effects)
    (changes : List Change) :
    (i.changeAll changes).2.Distinct ∧
      (i.changeAll changes).2.aliases =
        survivors (effects ++ (i.changeAll changes).1) := by
  induction changes generalizing i effects with
  | nil => exact ⟨h, by rw [changeAll, List.append_nil]; exact haliases⟩
  | cons c changes ih =>
      have hlater := ih (h.change c) (h.aliases_change haliases c)
      rw [List.append_assoc, List.singleton_append] at hlater
      exact hlater

/-- Under additions and removals the aliases of an identity without any become
an ordered set, although denoting the same record is not transitive.  No two
members denote the same record, and they stand in the order in which those that
are left have been added.  An alias is refused just if a member denotes the same
record, and otherwise stands at the end.  Removing detaches the first member
that denotes the same record and leaves the others as they stand; just if there
is none it changes nothing. -/
theorem aliases_ordered_set :
    (∀ a b : Alias, a.sameRecord b = b.sameRecord a) ∧
    (∃ a b c : Alias, a.sameRecord b = true ∧ b.sameRecord c = true ∧
      a.sameRecord c = false) ∧
    ∀ (ident : Ident) (name : String) (primaryEmail : Option String)
      (changes : List Change),
      let (effects, i) := changeAll { ident, name, primaryEmail } changes
      i.Distinct ∧ i.aliases = survivors effects ∧
      (∀ a, (i.addAlias a = (false, i) ↔
        ∃ m ∈ i.aliases, m.sameRecord a = true) ∧
        (i.addAlias a = (true, { i with aliases := i.aliases ++ [a] }) ↔
          ∀ m ∈ i.aliases, m.sameRecord a = false)) ∧
      ∀ a, (i.removeAlias a = (none, i) ↔
        ∀ m ∈ i.aliases, m.sameRecord a = false) ∧
        ∀ m j, i.removeAlias a = (some m, j) ↔
          ∃ front back, i.aliases = front ++ m :: back ∧
          (∀ x ∈ front, x.sameRecord a = false) ∧ m.sameRecord a = true ∧
          j = { i with aliases := front ++ back } := by
  refine ⟨Alias.sameRecord_comm, Alias.sameRecord_not_trans, ?_⟩
  intro ident name primaryEmail changes
  have hempty : Distinct { ident, name, primaryEmail } := .nil
  obtain ⟨hdistinct, haliases⟩ :=
    hempty.aliases_changeAll (show _ = survivors [] from rfl) changes
  refine ⟨hdistinct, haliases, ?_, ?_⟩
  · intro a
    exact ⟨addAlias_eq_false_iff, addAlias_eq_true_iff⟩
  · intro a
    constructor
    · exact removeAlias_eq_none_iff
    · intro m j
      exact removeAlias_eq_some_iff

variable {i : Identity} {q : Alias} {id : EntityId}

theorem addAlias_of_saved (hid : Record.id? q = some id) :
    i.addAlias q = (false, i) ↔
      (∃ m ∈ i.aliases, Record.id? m = some id) ∨
      ∃ m ∈ i.aliases, m.LooksLike q := by
  simp only [addAlias_eq_false_iff, Alias.sameRecord_of_saved hid,
    and_or_left, exists_or]

theorem addAlias_fst_eq_false :
    (i.addAlias q).1 = false ↔ i.addAlias q = (false, i) := by
  unfold addAlias
  split <;> simp

theorem Distinct.sameRecord_of_saved (h : i.Distinct)
    (hid : Record.id? q = some id) {front back : List Alias} {m x : Alias}
    (haliases : i.aliases = front ++ m :: back)
    (hm : Record.id? m = some id) (hx : x ∈ front ++ back) :
    x.sameRecord q = true ↔ x.LooksLike q := by
  have hother : Record.id? x ≠ some id := fun hx' =>
    Bool.eq_false_iff.mp (h.sameRecord_of_append haliases hx)
      ((Alias.sameRecord_of_saved hm).mpr (.inl hx'))
  rw [Alias.sameRecord_of_saved hid, or_iff_right hother]

theorem Distinct.removeAlias_of_saved (h : i.Distinct)
    (hid : Record.id? q = some id) {front back : List Alias} {m : Alias}
    (haliases : i.aliases = front ++ m :: back) (hm : Record.id? m = some id) :
    i.removeAlias q = (some m, { i with aliases := front ++ back }) ↔
      ∀ x ∈ front, ¬ x.LooksLike q := by
  have hfound : ∀ x ∈ front, x.sameRecord q = true ↔ x.LooksLike q :=
    fun x hx =>
      h.sameRecord_of_saved hid haliases hm (List.mem_append_left _ hx)
  constructor
  · intro hremove x hx hlooks
    obtain ⟨front', back', haliases', hfront', -⟩ :=
      removeAlias_eq_some_iff.mp hremove
    have hx' : x ∉ front' := fun hmem =>
      Bool.eq_false_iff.mp (hfront' x hmem) ((hfound x hx).mpr hlooks)
    rcases List.append_eq_append_iff.mp (haliases.symm.trans haliases') with
      ⟨between, rfl, -⟩ | ⟨_ | ⟨b, between⟩, rfl, htail⟩
    · exact hx' (List.mem_append_left _ hx)
    · exact hx' (by simpa using hx)
    · -- then the member with the identifier would stand in front of itself
      obtain ⟨rfl, -⟩ := List.cons.inj htail
      have hother := h.sameRecord_of_append haliases (x := m) (by simp)
      exact absurd m.sameRecord_self (Bool.eq_false_iff.mp hother)
  · intro hfront
    refine removeAlias_of_append haliases (fun x hx => ?_) ?_
    · exact Bool.eq_false_iff.mpr fun hsame =>
        hfront x hx ((hfound x hx).mp hsame)
    · exact (Alias.sameRecord_of_saved hid).mpr (.inl hm)

/-- The first unsaved alias that looks like it is detached if the member with
the identifier is behind. -/
theorem Distinct.removeAlias_of_looksLike (h : i.Distinct)
    (hid : Record.id? q = some id) {front between back : List Alias}
    {x m : Alias} (haliases : i.aliases = front ++ x :: (between ++ m :: back))
    (hm : Record.id? m = some id) (hx : x.LooksLike q)
    (hfront : ∀ y ∈ front, ¬ y.LooksLike q) :
    i.removeAlias q = (some x,
      { i with aliases := front ++ (between ++ m :: back) }) := by
  refine removeAlias_of_append haliases (fun y hy => ?_)
    ((Alias.sameRecord_of_saved hid).mpr (.inr hx))
  have hmember : i.aliases = (front ++ x :: between) ++ m :: back := by
    rw [haliases, List.append_assoc, List.cons_append]
  refine Bool.eq_false_iff.mpr fun hsame => hfront y hy ?_
  exact (h.sameRecord_of_saved hid hmember hm (by simp [hy])).mp hsame

/-- An alias that is saved is told from others by its identifier, except from
unsaved ones that look like it.  It is refused just if a member has its
identifier or is an unsaved one that looks like it.  Of a member with its
identifier and an unsaved one that looks like it, the one in front is
detached. -/
theorem saved_aliases (h : i.Distinct) (hid : Record.id? q = some id) :
    ((i.addAlias q).1 = false ↔
      (∃ m ∈ i.aliases, Record.id? m = some id) ∨
        ∃ m ∈ i.aliases, m.LooksLike q) ∧
    (((i.addAlias q).1 = false → ∃ m ∈ i.aliases, Record.id? m = some id) ↔
      (∃ m ∈ i.aliases, Record.id? m = some id) ∨
        ∀ m ∈ i.aliases, ¬ m.LooksLike q) ∧
    ∀ front m back, i.aliases = front ++ m :: back → Record.id? m = some id →
      (i.removeAlias q = (some m, { i with aliases := front ++ back }) ↔
        ∀ x ∈ front, ¬ x.LooksLike q) ∧
      ∀ front' x between, front = front' ++ x :: between → x.LooksLike q →
        (∀ y ∈ front', ¬ y.LooksLike q) →
        i.removeAlias q = (some x,
          { i with aliases := front' ++ (between ++ m :: back) }) := by
  have hrefused := addAlias_fst_eq_false.trans (addAlias_of_saved hid (i := i))
  refine ⟨hrefused, ?_, fun front m back haliases hm =>
    ⟨h.removeAlias_of_saved hid haliases hm, ?_⟩⟩
  · rw [hrefused]
    constructor
    · intro hcarried
      by_cases hlooks : ∃ m ∈ i.aliases, m.LooksLike q
      · exact .inl (hcarried (.inr hlooks))
      · exact .inr fun m hm hlooks' => hlooks ⟨m, hm, hlooks'⟩
    · rintro (hcarried | hnone) (hfound | ⟨m, hm, hlooks⟩)
      · exact hfound
      · exact hcarried
      · exact hfound
      · exact absurd hlooks (hnone m hm)
  · rintro front' x between rfl hlooks hfront'
    rw [List.append_assoc, List.cons_append] at haliases
    exact h.removeAlias_of_looksLike hid haliases hm hlooks hfront'

def newcomerFirst : Identity where
  name := "ada"
  aliases :=
    [{ name := "x", email := "x" },
      { ident := .ofValue 2, name := "y", email := "y" }]

theorem newcomerFirst_distinct : newcomerFirst.Distinct := by
  unfold Distinct
  decide

def staleCopy : Alias where
  ident := .ofValue 2
  name := "x"
  email := "x"

theorem saved_aliases_newcomerFirst :
    newcomerFirst.Distinct ∧ Record.id? staleCopy = some ⟨2, by decide⟩ ∧
      (newcomerFirst.addAlias staleCopy).1 = false ∧
      newcomerFirst.removeAlias staleCopy = (some { name := "x", email := "x" },
        { newcomerFirst with
          aliases := [{ ident := .ofValue 2, name := "y",
                        email := "y" }] }) := by
  have hid : Record.id? staleCopy = some ⟨2, by decide⟩ := by decide
  obtain ⟨hrefused, -, hremove⟩ := saved_aliases newcomerFirst_distinct hid
  refine ⟨newcomerFirst_distinct, hid, hrefused.mpr (.inl (by decide)), ?_⟩
  exact (hremove [{ name := "x", email := "x" }] _ [] rfl (by decide)).2 [] _ []
    rfl (by decide) (by simp)

/-- An alias that is saved can be refused although no member has its identifier,
and removing it can leave the member with its identifier. -/
theorem saved_alias_not_by_identifier :
    (¬ ∀ (i : Identity) (q : Alias) (id : EntityId), i.Distinct →
      Record.id? q = some id →
      (i.addAlias q).1 = false → ∃ m ∈ i.aliases, Record.id? m = some id) ∧
    ¬ ∀ (i : Identity) (q : Alias) (id : EntityId), i.Distinct →
      Record.id? q = some id →
      ∀ m ∈ i.aliases, Record.id? m = some id →
        (i.removeAlias q).1 = some m := by
  constructor
  · intro h
    exact absurd (h newcomerFirst
      { ident := .ofValue 1, name := "x", email := "x" } ⟨1, by decide⟩
      newcomerFirst_distinct (by decide) (by decide)) (by decide)
  · intro h
    exact absurd (h newcomerFirst staleCopy ⟨2, by decide⟩
      newcomerFirst_distinct (by decide)
      { ident := .ofValue 2, name := "y", email := "y" } (by decide)
        (by decide)) (by decide)

end Identity

end Annals
