import WatchTrace.Model.Envelope

/-!
# What is signed for one purpose

A signature is made over a domain, a zero byte and some parts, each behind its
length. The bytes can be read in one way only, so what is signed as a job is
never a result or an acknowledgement.
-/

namespace WatchTrace.Proofs.Framing

open Model

variable {n m : Nat} {d₁ d₂ r₁ r₂ : Bytes} {p₁ p₂ : List Bytes}

theorem lengthBytes_injective {a b : UInt32} (h : lengthBytes a = lengthBytes b) : a = b := by
  simp only [lengthBytes, List.cons.injEq, and_true, ← UInt8.toNat_inj, UInt32.toNat_toUInt8,
    UInt32.toNat_shiftRight, UInt32.toNat_ofNat, Nat.shiftRight_eq_div_pow,
    Nat.reduceMod, Nat.reducePow] at h
  have ha := a.toNat_lt
  have hb := b.toNat_lt
  rw [← UInt32.toNat_inj]
  omega

theorem length_eq_of_lengthBytes (hn : n < 2 ^ 32) (hm : m < 2 ^ 32)
    (h : lengthBytes (UInt32.ofNat n) = lengthBytes (UInt32.ofNat m)) : n = m := by
  have := congrArg UInt32.toNat (lengthBytes_injective h)
  rwa [UInt32.toNat_ofNat_of_lt' hn, UInt32.toNat_ofNat_of_lt' hm] at this

/-- The first zero byte ends the domain. -/
theorem domain_unique (h₁ : 0 ∉ d₁) (h₂ : 0 ∉ d₂) (h : d₁ ++ 0 :: r₁ = d₂ ++ 0 :: r₂) :
    d₁ = d₂ ∧ r₁ = r₂ := by
  induction d₁ generalizing d₂ with
  | nil =>
    cases d₂ with
    | nil => exact ⟨rfl, (List.cons.inj h).2⟩
    | cons b d₂ => exact absurd (List.cons.inj h).1 (not_or.1 (mt List.mem_cons.2 h₂)).1
  | cons a d₁ ih =>
    cases d₂ with
    | nil => exact absurd (List.cons.inj h).1.symm (not_or.1 (mt List.mem_cons.2 h₁)).1
    | cons b d₂ =>
    obtain ⟨rfl, hrest⟩ := List.cons.inj h
    obtain ⟨rfl, hr⟩ := ih (not_or.1 (mt List.mem_cons.2 h₁)).2
      (not_or.1 (mt List.mem_cons.2 h₂)).2 hrest
    exact ⟨rfl, hr⟩

/-- Each length says where its part ends. -/
theorem parts_unique (h₁ : ∀ p ∈ p₁, p.length < 2 ^ 32) (h₂ : ∀ p ∈ p₂, p.length < 2 ^ 32)
    (h : (p₁.flatMap fun part => lengthBytes (UInt32.ofNat part.length) ++ part)
      = p₂.flatMap fun part => lengthBytes (UInt32.ofNat part.length) ++ part) : p₁ = p₂ := by
  induction p₁ generalizing p₂ with
  | nil =>
    cases p₂ with
    | nil => rfl
    | cons b p₂ => cases h
  | cons a p₁ ih =>
    cases p₂ with
    | nil => cases h
    | cons b p₂ =>
    obtain ⟨ha, hp₁⟩ := List.forall_mem_cons.1 h₁
    obtain ⟨hb, hp₂⟩ := List.forall_mem_cons.1 h₂
    rw [List.flatMap_cons, List.flatMap_cons, List.append_assoc, List.append_assoc] at h
    obtain ⟨hlength, hrest⟩ := List.append_inj h rfl
    obtain ⟨rfl, hparts⟩ := List.append_inj hrest (length_eq_of_lengthBytes ha hb hlength)
    rw [ih hp₁ hp₂ hparts]

/-- **Domain framing is injective.** -/
theorem appendDomain_injective : (∀ d₁ d₂ p₁ p₂, 0 ∉ d₁ → 0 ∉ d₂ → (∀ p ∈ p₁, p.length < 2 ^ 32) →
      (∀ p ∈ p₂, p.length < 2 ^ 32) → appendDomain d₁ p₁ = appendDomain d₂ p₂ →
      d₁ = d₂ ∧ p₁ = p₂) ∧
    ∀ aad plain result expired, jobSignatureInput aad plain ≠ resultSignatureInput result ∧
      jobSignatureInput aad plain ≠ expiredSignatureInput expired ∧
      resultSignatureInput result ≠ expiredSignatureInput expired := by
  refine ⟨fun d₁ d₂ p₁ p₂ hd₁ hd₂ hp₁ hp₂ h => ?_, fun aad plain result expired =>
    ⟨fun h => ?_, fun h => ?_, fun h => ?_⟩⟩
  · obtain ⟨rfl, hparts⟩ := domain_unique hd₁ hd₂ h
    exact ⟨rfl, parts_unique hp₁ hp₂ hparts⟩
  all_goals
    exact absurd (domain_unique (by decide +kernel) (by decide +kernel) h).1 (by decide +kernel)

/-- Two parts are not one part that looks like them. -/
theorem appendDomain_injective_sample : appendDomain (domainBytes "d") [[1], [2]]
      ≠ appendDomain (domainBytes "d") [[1, 0, 0, 0, 1, 2]] :=
  fun h => absurd (appendDomain_injective.1 _ _ _ _ (by decide +kernel) (by decide +kernel)
    (by decide +kernel) (by decide +kernel) h).2 (by decide +kernel)

end WatchTrace.Proofs.Framing
