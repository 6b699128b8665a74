/-!
# The order of texts

The order of a dictionary: by the first characters that differ, and a beginning before all that
begins so.  It is transitive and total.
-/

namespace FlatMemory.Text

/-- Whether a text stands before another one in a dictionary, or is the same. -/
def precedes : List Char → List Char → Bool
  | [], _ => true
  | _ :: _, [] => false
  | a :: as, b :: bs => a.toNat < b.toNat || (a.toNat == b.toNat && precedes as bs)

@[simp] theorem precedes_nil (bs : List Char) : precedes [] bs = true := rfl

@[simp] theorem precedes_cons_nil (a : Char) (as : List Char) :
    precedes (a :: as) [] = false := rfl

theorem precedes_cons_iff (a b : Char) (as bs : List Char) :
    precedes (a :: as) (b :: bs) = true ↔
      a.toNat < b.toNat ∨ a.toNat = b.toNat ∧ precedes as bs = true := by
  simp [precedes]

theorem precedes_or (as bs : List Char) :
    precedes as bs = true ∨ precedes bs as = true := by
  induction as generalizing bs with
  | nil => exact .inl rfl
  | cons a as ih =>
    cases bs with
    | nil => exact .inr rfl
    | cons b bs =>
      rw [precedes_cons_iff, precedes_cons_iff]
      rcases Nat.lt_trichotomy a.toNat b.toNat with h | h | h
      · exact .inl (.inl h)
      · exact (ih bs).imp (fun hab => .inr ⟨h, hab⟩) fun hba => .inr ⟨h.symm, hba⟩
      · exact .inr (.inl h)

theorem precedes_trans {as bs cs : List Char} (hab : precedes as bs = true)
    (hbc : precedes bs cs = true) : precedes as cs = true := by
  induction as generalizing bs cs with
  | nil => rfl
  | cons a as ih =>
    cases bs with
    | nil => simp at hab
    | cons b bs =>
      cases cs with
      | nil => simp at hbc
      | cons d ds =>
        rw [precedes_cons_iff] at hab hbc ⊢
        rcases hab with hab | ⟨hab, htail⟩ <;> rcases hbc with hbc | ⟨hbc, htail'⟩
        · exact .inl (Nat.lt_trans hab hbc)
        · exact .inl (hbc ▸ hab)
        · exact .inl (hab ▸ hbc)
        · exact .inr ⟨hab.trans hbc, ih htail htail'⟩

end FlatMemory.Text
