import ApiModel.Naming
import ApiModel.Proofs.ClientSource.Piece

/-!
# Names in code

The spellings of a name in code hold nothing but its own characters, underscores, and letters for letters.

Principal results: `isBare_snakeCase` and `isBare_pascalCase` — **a name without slashes and quotes has none in its
spellings**.
-/

namespace ApiModel

open Source Naming

namespace Source

/-- The character is no slash and no quote. -/
def IsBareChar (c : Char) : Prop := c ≠ '/' ∧ c ≠ '"' ∧ c ≠ '\''

instance (c : Char) : Decidable (IsBareChar c) := inferInstanceAs (Decidable (_ ∧ _ ∧ _))

theorem isBareChar_of_le {c : Char} (h : 0x30 ≤ c.toNat) : IsBareChar c :=
  ⟨by rintro rfl; exact absurd h (by decide), by rintro rfl; exact absurd h (by decide),
    by rintro rfl; exact absurd h (by decide)⟩

theorem isBareChar_ofNat {n : Nat} (h : 0x30 ≤ n) : IsBareChar (Char.ofNat n) := by
  by_cases hvalid : n.isValidChar
  · rw [Char.ofNat, dif_pos hvalid]
    exact isBareChar_of_le h
  · rw [Char.ofNat, dif_neg hvalid]
    decide

theorem isBareChar_toLower {c : Char} (h : IsBareChar c) : IsBareChar c.toLower := by
  unfold Char.toLower
  split
  · rename_i hletter
    have hdistance : ('a'.val - 'A'.val).toNat = 32 := by decide
    have hfirst : 65 ≤ c.val.toNat := UInt32.le_iff_toNat_le.1 hletter.1
    have hlast : c.val.toNat ≤ 90 := UInt32.le_iff_toNat_le.1 hletter.2
    refine isBareChar_of_le ?_
    show 0x30 ≤ (c.val + ('a'.val - 'A'.val)).toNat
    rw [UInt32.toNat_add, hdistance]
    omega
  · exact h

theorem isBareChar_toUpper {c : Char} (h : IsBareChar c) : IsBareChar c.toUpper := by
  unfold Char.toUpper
  split
  · rename_i hletter
    have hdistance : ('A'.val - 'a'.val).toNat = 2 ^ 32 - 32 := by decide
    have hfirst : 97 ≤ c.val.toNat := UInt32.le_iff_toNat_le.1 hletter.1
    have hlast : c.val.toNat ≤ 122 := UInt32.le_iff_toNat_le.1 hletter.2
    refine isBareChar_of_le ?_
    show 0x30 ≤ (c.val + ('A'.val - 'a'.val)).toNat
    rw [UInt32.toNat_add, hdistance]
    omega
  · exact h

end Source

namespace Naming

variable {s out : List Char} {c : Char} {prev : Option Char}

/-! ## Snake case -/

theorem isBare_snakeFrom (hout : IsBare out) (hs : IsBare s) : IsBare (snakeFrom prev out s) :=
  forall_mem_snakeFrom (by decide) (fun c hc _ => isBareChar_toLower (hs c hc)) (fun c hc _ _ => hs c hc)
    hout

/-- A name without slashes and quotes has none in snake case. -/
theorem isBare_snakeCase {name : String} (h : IsBare name.toList) : IsBare (snakeCase name).toList := by
  intro c hc
  unfold snakeCase at hc
  rw [String.toList_ofList] at hc
  have hc := mem_of_mem_collapse (mem_of_mem_strip hc)
  exact isBare_snakeFrom (fun d hd => absurd hd List.not_mem_nil) h c (List.mem_reverse.1 hc)

/-! ## Pascal case -/

theorem isBare_capital (h : IsBareChar c) : IsBare (Text.capital c) := by
  have hwide : ∀ wide ∈ Text.wideCapitals, IsBare wide.2 := by decide +kernel
  have hruns : ∀ run ∈ Text.capitalRuns, 0x30 ≤ run.1.first + run.2.1 - run.2.2 := by decide +kernel
  unfold Text.capital
  split
  · exact List.forall_mem_singleton.2 (isBareChar_toUpper h)
  · split
    · rename_i wide hfound
      exact hwide wide (List.mem_of_find?_eq_some hfound)
    · split
      · rename_i run added subtracted hfound
        have hleast := hruns _ (List.mem_of_find?_eq_some hfound)
        have hrun := List.find?_some hfound
        simp only [Text.CodeRun.has, Bool.and_eq_true, decide_eq_true_eq] at hrun
        refine List.forall_mem_singleton.2 (isBareChar_ofNat ?_)
        have hfirst := hrun.1.1
        simp only at hleast
        omega
      · exact List.forall_mem_singleton.2 h

theorem mem_of_mem_pieces {isSep : Char → Bool} {piece : List Char} (hpiece : piece ∈ Text.pieces isSep s)
    (hc : c ∈ piece) : c ∈ s := by
  induction s generalizing piece with
  | nil => simp_all [Text.pieces]
  | cons d rest ih =>
    unfold Text.pieces at hpiece
    split at hpiece
    · rcases List.mem_cons.1 hpiece with rfl | hpiece
      · cases hc
      · exact List.mem_cons_of_mem d (ih hpiece hc)
    · split at hpiece
      · simp_all
      · rename_i first more hpieces
        rw [hpieces] at ih
        rcases List.mem_cons.1 hpiece with rfl | hpiece
        · rcases List.mem_cons.1 hc with rfl | hc
          · exact List.mem_cons_self ..
          · exact List.mem_cons_of_mem d (ih (List.mem_cons_self ..) hc)
        · exact List.mem_cons_of_mem d (ih (List.mem_cons_of_mem _ hpiece) hc)

/-- A name without slashes and quotes has none in Pascal case. -/
theorem isBare_pascalCase {name : String} (h : IsBare name.toList) : IsBare (pascalCase name).toList := by
  intro c hc
  unfold pascalCase at hc
  rw [String.toList_ofList] at hc
  obtain ⟨piece, hpiece, hc⟩ := List.mem_flatMap.1 hc
  have hbare : IsBare piece := fun d hd => h d (mem_of_mem_pieces hpiece hd)
  cases piece with
  | nil => cases hc
  | cons d rest =>
    obtain ⟨hd, hrest⟩ := List.forall_mem_cons.1 hbare
    rcases List.mem_append.1 hc with hc | hc
    · exact isBare_capital hd c hc
    · exact hrest c hc

end Naming

end ApiModel
