import Rs2Runtime.Data.Table

/-!
Contract: claims that are remembered for a while.

Owns:
- tables of claims with the time each expires;
- a claim, which sweeps expired ones and is won if the key is vacant;
- how long a key is held.
-/

namespace Rs2Runtime.Data

universe u

/-- When the claim of a key expires. -/
abbrev Expiring (κ : Type u) := Table κ Nat

namespace Expiring

variable {κ : Type u} [DecidableEq κ]

/-- Claim a key for a time after a sweep of expired claims; true if this caller won. -/
def claim (claimed : Expiring κ) (key : κ) (now ttl : Nat) : Bool × Expiring κ :=
  let swept := claimed.retain fun _ expires => now < expires
  match swept.find key with
  | none => (true, swept.put key (now + ttl))
  | some _ => (false, swept)

/-- The key is held at least until a time. -/
def Holds (claimed : Expiring κ) (key : κ) (until_ : Nat) : Prop :=
  ∃ expires, claimed.find key = some expires ∧ until_ ≤ expires

variable {claimed : Expiring κ} {now : Nat}

/-- A sweep keeps what is held for longer. -/
theorem Holds.sweep {key : κ} {until_ : Nat} (held : Holds claimed key until_)
    (unexpired : now < until_) :
    Holds (claimed.retain fun _ expires => now < expires) key until_ := by
  obtain ⟨expires, found, longer⟩ := held
  refine ⟨expires, ?_, longer⟩
  rw [Table.find_retain, found]
  exact Option.filter_some_pos (decide_eq_true (lt_of_lt_of_le unexpired longer))

/-- A held key cannot be claimed. -/
theorem Holds.claim_lost {key : κ} {until_ : Nat} (held : Holds claimed key until_)
    (unexpired : now < until_) (ttl : Nat) : (claim claimed key now ttl).1 = false := by
  obtain ⟨expires, found, -⟩ := held.sweep unexpired
  unfold claim
  simp only [found]

/-- A claim leaves what is held for longer. -/
theorem Holds.claim {key : κ} {until_ : Nat} (held : Holds claimed key until_)
    (unexpired : now < until_) (other : κ) (ttl : Nat) :
    Holds (claim claimed other now ttl).2 key until_ := by
  have swept := held.sweep unexpired
  unfold Expiring.claim
  dsimp only
  split
  next vacant =>
    obtain ⟨expires, found, longer⟩ := swept
    have differs : key ≠ other := by
      rintro rfl
      rw [vacant] at found
      cases found
    exact ⟨expires, by rw [Table.find_put, if_neg differs, found], longer⟩
  next => exact swept

/-- A claim that is won holds its key for the time given. -/
theorem holds_of_claim_won {key : κ} {ttl : Nat} (won : (claim claimed key now ttl).1 = true) :
    Holds (claim claimed key now ttl).2 key (now + ttl) := by
  unfold claim at won ⊢
  dsimp only at won ⊢
  split at won
  next => exact ⟨now + ttl, by rw [Table.find_put, if_pos rfl], le_refl _⟩
  next => cases won

end Expiring

end Rs2Runtime.Data
