/-
**Chains of hashes.**

Each record of a chain is hashed together with the hash of the record before it; the first one
together with a hash that stands for the empty chain.  Whoever holds the last hash holds all the
records, as far as the hash function does not collide on what was hashed.

Main definitions:

* `HashChain.tip` — the last hash of the chain of some records;
* `HashChain.hashes` — the hashes of the records, one after the other;
* `HashChain.hashed` — what was hashed for them.

Main results:

* `HashChain.eq_of_tip_eq` — **chains with the same last hash have the same records**.
-/

import Mathlib.Data.List.Induction
import Mathlib.Data.Set.Function

set_option relaxedAutoImplicit false
set_option autoImplicit false

namespace HashChain

variable {ρ σ δ : Type} (H : σ → δ) (enc : δ → ρ → σ)

/-- **The last hash** of a chain that begins after the hash `g`. -/
def tip (g : δ) (records : List ρ) : δ := records.foldl (fun prev r => H (enc prev r)) g

/-- The hashes of the records. -/
def hashes : δ → List ρ → List δ
  | _, [] => []
  | prev, r :: records => H (enc prev r) :: hashes (H (enc prev r)) records

/-- What was hashed for the records. -/
def hashed : δ → List ρ → List σ
  | _, [] => []
  | prev, r :: records => enc prev r :: hashed (H (enc prev r)) records

@[simp] theorem tip_nil (g : δ) : tip H enc g [] = g := rfl

@[simp] theorem tip_append (g : δ) (records more : List ρ) :
    tip H enc g (records ++ more) = tip H enc (tip H enc g records) more :=
  List.foldl_append

theorem hashed_append (records more : List ρ) : ∀ g : δ, hashed H enc g (records ++ more) =
    hashed H enc g records ++ hashed H enc (tip H enc g records) more := by
  induction records with
  | nil => intro g; rfl
  | cons r records ih => intro g; simp only [List.cons_append, hashed, ih]; rfl

variable {H enc}

/-- **Chains with the same last hash have the same records**: the encoding tells the records in
question apart, the hash function does not collide on what was hashed, and nothing that was hashed
has the hash of the empty chain. -/
theorem eq_of_tip_eq (Valid : ρ → Prop) {g : δ}
    (henc : ∀ p p' r r', Valid r → Valid r' → enc p r = enc p' r' → p = p' ∧ r = r')
    {records records' : List ρ} (hvalid : ∀ r ∈ records, Valid r) (hvalid' : ∀ r ∈ records', Valid r)
    (hinj : Set.InjOn H {x | x ∈ hashed H enc g records ∨ x ∈ hashed H enc g records'})
    (hgenesis : ∀ x, x ∈ hashed H enc g records ∨ x ∈ hashed H enc g records' → H x ≠ g)
    (htip : tip H enc g records = tip H enc g records') : records = records' := by
  -- from the last record backwards
  induction records using List.reverseRecOn generalizing records' with
  | nil =>
      rcases List.eq_nil_or_concat records' with rfl | ⟨init, r', rfl⟩
      · rfl
      · refine absurd ?_ (hgenesis (enc (tip H enc g init) r') (Or.inr ?_))
        · simpa [tip] using htip.symm
        · simp [hashed_append, hashed]
  | append_singleton init r ih =>
      rcases List.eq_nil_or_concat records' with rfl | ⟨init', r', rfl⟩
      · refine absurd ?_ (hgenesis (enc (tip H enc g init) r) (Or.inl ?_))
        · simpa [tip] using htip
        · simp [hashed_append, hashed]
      · have hsame : enc (tip H enc g init) r = enc (tip H enc g init') r' := by
          refine hinj (Or.inl ?_) (Or.inr ?_) ?_
          · simp [hashed_append, hashed]
          · simp [hashed_append, hashed]
          · simpa [tip] using htip
        obtain ⟨hprev, rfl⟩ := henc _ _ r r' (hvalid r (by simp)) (hvalid' r' (by simp)) hsame
        have hinit : init = init' := by
          refine ih (fun x hx => hvalid x (by simp [hx])) (fun x hx => hvalid' x (by simp [hx]))
            (hinj.mono ?_) (fun x hx => hgenesis x ?_) hprev
          · rintro x (hx | hx)
            · exact Or.inl (by simp [hashed_append, hx])
            · exact Or.inr (by simp [hashed_append, hx])
          · rcases hx with hx | hx
            · exact Or.inl (by simp [hashed_append, hx])
            · exact Or.inr (by simp [hashed_append, hx])
        rw [hinit, List.concat_eq_append]

end HashChain
