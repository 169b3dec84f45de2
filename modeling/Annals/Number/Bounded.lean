namespace Annals.Number

/-- The integer of 64 bits that equals a number, if there is one. -/
def int64? (n : Int) : Option Int64 :=
  if (Int64.ofInt n).toInt = n then some (Int64.ofInt n) else none

theorem int64?_eq_some {n : Int} {i : Int64} :
    int64? n = some i ↔ i.toInt = n := by
  unfold int64?
  constructor
  · intro h
    split at h
    case isTrue hfits =>
      cases h
      exact hfits
    case isFalse => cases h
  · rintro rfl
    simp

end Annals.Number
