import Annals.Proofs.Membership

namespace Annals

namespace Identity

/-- The second identity has come from the first one by adding and removing
aliases. -/
inductive Rearranged (i : Identity) : Identity → Prop where
  | same : Rearranged i i
  | added {j : Identity} (h : Rearranged i j)
      (a : Alias) : Rearranged i (j.addAlias a).2
  | removed {j : Identity} (h : Rearranged i j)
      (a : Alias) : Rearranged i (j.removeAlias a).2

def aliasIds (i : Identity) : List EntityId := i.aliases.filterMap Record.id?

def newcomers (i : Identity) : Nat :=
  i.aliases.countP fun a => (Record.id? a).isNone

theorem Distinct.removeAlias {i : Identity} (h : i.Distinct) (a : Alias) :
    (i.removeAlias a).2.Distinct := by
  unfold Identity.removeAlias
  split
  · exact h.sublist (List.eraseIdx_sublist ..)
  · exact h

namespace Rearranged

variable {i j : Identity}

theorem distinct (h : Rearranged i j) (hi : i.Distinct) : j.Distinct := by
  induction h with
  | same => exact hi
  | added _ a ih => exact ih.addAlias a
  | removed _ a ih => exact ih.removeAlias a

theorem id?_eq (h : Rearranged i j) : Record.id? j = Record.id? i := by
  induction h with
  | same => rfl
  | @added j _ a ih =>
      rw [← ih]
      unfold addAlias
      split <;> rfl
  | @removed j _ a ih =>
      rw [← ih]
      unfold removeAlias
      split <;> rfl

end Rearranged

end Identity

end Annals
