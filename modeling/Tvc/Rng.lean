import Tvc.Lib.Mixing
import Tvc.Simulator

/-!
# The streams of `sim/rng.py`

The mixing of a word folds and multiplies by odd constants, so it loses nothing; and the counter under a stream moves by
an odd constant, so it passes every word. The streams of a seed start apart, and none repeats a word in a round.
-/

namespace Tvc.Rng

/-- `MIX1` is odd. -/
theorem mix1_unit : mix1 * 0x96DE1B173F119089 = 1 := by decide

/-- `MIX2` is odd. -/
theorem mix2_unit : mix2 * 0x319642B2D24D8EC3 = 1 := by decide

/-- `GOLDEN` is odd. -/
theorem golden_unit : golden * 0xF1DE83E19937733D = 1 := by decide

/-- `_mix` folds, multiplies, folds, multiplies and folds. -/
theorem mix_eq (value : U64) :
    mix value = Mixing.fold 31 (Mixing.fold 27 (Mixing.fold 30 value * mix1) * mix2) := rfl

/-- `_mix` loses nothing. -/
theorem mix_injective : Function.Injective mix := by
  intro x y h
  rw [mix_eq, mix_eq] at h
  have hsecond := Mixing.mul_injective mix2_unit (Mixing.fold_injective (by decide) h)
  have hfirst := Mixing.mul_injective mix1_unit (Mixing.fold_injective (by decide) hsecond)
  exact Mixing.fold_injective (by decide) hfirst

/-- The state of a stream from which some words were drawn. -/
def stateAfter (state : U64) (n : ℕ) : U64 := (fun state => (nextU64 state).2)^[n] state

/-- The word that a stream gives after some others. -/
def output (state : U64) (n : ℕ) : U64 := (nextU64 (stateAfter state n)).1

/-- A stream counts. -/
theorem stateAfter_eq (state : U64) (n : ℕ) : stateAfter state n = state + n * golden :=
  Mixing.iterate_add golden state n

/-- The words of a stream are the mixed counts. -/
theorem output_eq (state : U64) (n : ℕ) : output state n = mix (state + golden + n * golden) := by
  rw [output, stateAfter_eq, nextU64]
  exact congrArg mix (add_right_comm _ _ _)

/-- There are seven streams. -/
theorem Stream.index_lt (name : Stream) : name.index < 7 := by cases name <;> decide

/-- The places of the streams tell them apart. -/
theorem Stream.index_injective : Function.Injective Stream.index := by
  intro name name' h
  cases name <;> cases name' <;> first | rfl | nomatch h

/-- The streams of a seed start apart. -/
theorem streamState_injective (master : U64) : Function.Injective (streamState master) := by
  intro name name' h
  have hcount := Mixing.mul_injective golden_unit (add_left_cancel (mix_injective h))
  have hplace := congrArg BitVec.toNat hcount
  have hlt := name.index_lt
  have hlt' := name'.index_lt
  rw [BitVec.toNat_ofNat, BitVec.toNat_ofNat, Nat.mod_eq_of_lt (by omega), Nat.mod_eq_of_lt (by omega)] at hplace
  exact Stream.index_injective (Nat.succ.inj hplace)

/-- `_mix` is a bijection of the words; so different seeds start a stream apart, one seed starts its seven streams apart,
and in a round each stream gives every word once. -/
theorem streams_separated :
    Function.Bijective mix ∧
      (∀ name, Function.Injective fun master => streamState master name) ∧
      (∀ master, Function.Injective fun name => streamState master name) ∧
      ∀ state, Function.Bijective fun n : Fin (2 ^ 64) => output state n := by
  have hbijective : Function.Bijective mix := Mixing.bijective_of_injective mix_injective
  refine ⟨hbijective, fun name master master' h => ?_, streamState_injective, fun state => ?_⟩
  · exact add_right_cancel (mix_injective h)
  · have houtput : (fun n : Fin (2 ^ 64) => output state n) =
        mix ∘ fun n : Fin (2 ^ 64) => state + golden + (n.val : U64) * golden :=
      funext fun n => output_eq state n
    rw [houtput]
    exact hbijective.comp (Mixing.counter_bijective golden_unit _)

end Tvc.Rng
