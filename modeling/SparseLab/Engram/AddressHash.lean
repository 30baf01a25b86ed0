import Mathlib.NumberTheory.LucasLehmer
import SparseLab.Data.Streaming
import SparseLab.Library.AffineFolds

/-! Rows of the memory tables, from `address_hash.py` and `data/byte_hash.py`. -/

namespace SparseLab.Engram

open Library

open Data (hashBytes mixModulus mixMultiplier)

def legacyBase : Nat := 257

theorem mixModulus_prime : Nat.Prime mixModulus :=
  lucas_lehmer_sufficiency 31 (by norm_num) (by norm_num)

theorem coprime_mixModulus {multiplier : Nat} (positive : 0 < multiplier)
    (small : multiplier < mixModulus) : Nat.Coprime multiplier mixModulus :=
  (Nat.coprime_of_lt_prime (Nat.pos_iff_ne_zero.mp positive) small mixModulus_prime).symm

section

variable (tableSize : ℕ+) (head : Nat)

def tokenMultiplier : Nat := legacyBase + 2 * head

def TokenUsesLegacy : Prop := Nat.gcd (tokenMultiplier head) tableSize = 1

instance : Decidable (TokenUsesLegacy tableSize head) := inferInstanceAs (Decidable (_ = _))

def tokenAddressStep (address token : Nat) : Nat :=
  if TokenUsesLegacy tableSize head then (address * tokenMultiplier head + token) % tableSize
  else (address * (mixMultiplier + 2 * head) + token + 1) % mixModulus

def tokenAddressFinish (address : Nat) : Nat :=
  if TokenUsesLegacy tableSize head then address else address % tableSize

/-- The fold of `token_ngram_address`, before `token_address_finish`. -/
def tokenAddressRun (key : List Nat) : Nat :=
  key.foldl (tokenAddressStep tableSize head) (head + 1)

def tokenNgramAddress (key : List Nat) : Nat :=
  tokenAddressFinish tableSize head (tokenAddressRun tableSize head key)

/-- What a step of the scheme multiplies by, and the modulus it reduces by. -/
def tokenScheme : Nat × Nat :=
  if TokenUsesLegacy tableSize head then (tokenMultiplier head, tableSize)
  else (mixMultiplier + 2 * head, mixModulus)

variable {tableSize head}

theorem tokenAddressStep_eq : ∃ offset ≤ 1, tokenAddressStep tableSize head =
    affineStep (tokenScheme tableSize head).1 offset (tokenScheme tableSize head).2 := by
  by_cases legacy : TokenUsesLegacy tableSize head
  · refine ⟨0, by omega, funext fun address => funext fun token => ?_⟩
    rw [tokenAddressStep, tokenScheme, if_pos legacy, if_pos legacy]
    rfl
  · refine ⟨1, le_rfl, funext fun address => funext fun token => ?_⟩
    rw [tokenAddressStep, tokenScheme, if_neg legacy, if_neg legacy]
    rfl

theorem tokenScheme_coprime (small : head < 521984201) :
    Nat.Coprime (tokenScheme tableSize head).1 (tokenScheme tableSize head).2 ∧
      0 < (tokenScheme tableSize head).2 := by
  unfold tokenScheme
  by_cases legacy : TokenUsesLegacy tableSize head
  · rw [if_pos legacy]
    exact ⟨legacy, tableSize.pos⟩
  · rw [if_neg legacy]
    exact ⟨coprime_mixModulus (by unfold mixMultiplier; omega)
      (by unfold mixMultiplier mixModulus; omega), mixModulus_prime.pos⟩

theorem tokenAddressRun_lt (small : head < 521984201) {key : List Nat} (filled : key ≠ []) :
    tokenAddressRun tableSize head key < (tokenScheme tableSize head).2 := by
  obtain ⟨offset, -, step⟩ := @tokenAddressStep_eq tableSize head
  rw [tokenAddressRun, step]
  exact foldl_affineStep_lt (tokenScheme_coprime small).2 filled _

theorem tokenScheme_small (small : head < 521984201) :
    (tokenScheme tableSize head).1 ≤ 2 ^ 31 - 2 := by
  unfold tokenScheme tokenMultiplier legacyBase mixMultiplier
  split <;> simp only <;> omega

/-- No table size makes an n-gram's address forget a token: two keys that differ in one token
meet exactly where the scheme's modulus cannot tell the tokens apart. -/
theorem token_address_separates (small : head < 521984201) (front back : List Nat)
    (token other : Nat) :
    (tokenAddressRun tableSize head (front ++ token :: back) =
        tokenAddressRun tableSize head (front ++ other :: back) ↔
      token ≡ other [MOD (tokenScheme tableSize head).2]) ∧
    (TokenUsesLegacy tableSize head →
      (tokenNgramAddress tableSize head (front ++ token :: back) =
          tokenNgramAddress tableSize head (front ++ other :: back) ↔
        token ≡ other [MOD tableSize])) ∧
    tokenNgramAddress tableSize head (front ++ token :: back) < tableSize := by
  obtain ⟨coprime, positive⟩ := @tokenScheme_coprime tableSize head small
  obtain ⟨offset, -, step⟩ := @tokenAddressStep_eq tableSize head
  have separates : tokenAddressRun tableSize head (front ++ token :: back) =
      tokenAddressRun tableSize head (front ++ other :: back) ↔
        token ≡ other [MOD (tokenScheme tableSize head).2] := by
    rw [tokenAddressRun, tokenAddressRun, step]
    exact foldl_affineStep_separates coprime positive
  refine ⟨separates, fun legacy => ?_, ?_⟩
  · simp only [tokenNgramAddress, tokenAddressFinish, if_pos legacy]
    rwa [tokenScheme, if_pos legacy] at separates
  · rw [tokenNgramAddress, tokenAddressFinish]
    by_cases legacy : TokenUsesLegacy tableSize head
    · have run := @tokenAddressRun_lt tableSize head small (front ++ token :: back) (by simp)
      rw [if_pos legacy]
      rwa [tokenScheme, if_pos legacy] at run
    · rw [if_neg legacy]
      exact Nat.mod_lt _ tableSize.pos

theorem token_address_separates_mixed :
    tokenAddressRun 514 0 [1, 2] ≠ tokenAddressRun 514 0 [3, 2] := by
  have separates := (@token_address_separates 514 0 (by decide) [] [2] 1 3).1
  exact fun same => absurd (separates.mp same) (by decide)

/-- Every value between two reductions stays below `2 ** 62`. -/
theorem token_arithmetic_fits (small : head < 521984201) (rows : (tableSize : Nat) ≤ 2 ^ 31 - 1)
    {key front back : List Nat} {token : Nat} (reached : key = front ++ token :: back)
    (tokens : ∀ token ∈ key, token < 2 ^ 31) :
    tokenAddressRun tableSize head front * (tokenScheme tableSize head).1 + token + 1 <
      2 ^ 62 := by
  have multiplier := @tokenScheme_small tableSize head small
  have last : token < 2 ^ 31 := tokens token (by simp [reached])
  have address : tokenAddressRun tableSize head front ≤ 2 ^ 31 - 1 := by
    by_cases first : front = []
    · rw [first]
      change head + 1 ≤ _
      omega
    · refine Nat.le_trans (tokenAddressRun_lt small first).le ?_
      unfold tokenScheme mixModulus
      split <;> simp only <;> omega
  have product := Nat.mul_le_mul address multiplier
  omega

theorem token_arithmetic_fits_large :
    tokenAddressRun 2147483647 0 [2147483646] * (tokenScheme 2147483647 0).1 + 5 + 1 < 2 ^ 62 :=
  @token_arithmetic_fits 2147483647 0 (by decide) (by decide) [2147483646, 5] [2147483646] [] 5 rfl
    (by decide)

end

section

/-- The loop of `hash_bytes`. -/
def hashPrefix (value : List UInt8) : Nat :=
  value.foldl (fun result byte => result * legacyBase + byte.toNat + 1) 0

theorem hashPrefix_digits (value : List UInt8) :
    Nat.digits legacyBase (hashPrefix value) = (value.map fun byte => byte.toNat + 1).reverse := by
  have digits : hashPrefix value =
      Nat.ofDigits legacyBase (value.map fun byte => byte.toNat + 1).reverse := by
    rw [Nat.ofDigits_eq_foldr, List.foldr_reverse, List.foldl_map, hashPrefix]
    congr 1
    funext result byte
    rw [Nat.cast_id]
    ring
  rw [digits]
  refine Nat.digits_ofDigits _ (by decide) _ (fun digit member => ?_) fun filled => ?_
  · obtain ⟨byte, -, rfl⟩ := List.mem_map.mp (List.mem_reverse.mp member)
    have := byte.toNat_lt
    unfold legacyBase
    omega
  · obtain ⟨byte, -, same⟩ := List.mem_map.mp (List.mem_reverse.mp (List.getLast_mem filled))
    omega

theorem hashBytes_injective : Function.Injective hashBytes := by
  intro first second same
  have prefixes : hashPrefix first = hashPrefix second :=
    Nat.eq_of_mul_eq_mul_right (by decide : 0 < legacyBase) same
  have digits := congrArg (Nat.digits legacyBase) prefixes
  rw [hashPrefix_digits, hashPrefix_digits] at digits
  refine List.map_injective_iff.mpr (fun byte other same => ?_) (List.reverse_injective digits)
  exact UInt8.toNat_inj.mp (Nat.succ_injective same)

end

end SparseLab.Engram
