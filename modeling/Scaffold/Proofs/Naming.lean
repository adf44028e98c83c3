import Mathlib.Data.List.Basic
import Scaffold.Naming

/-!
# Characters of names in the cases of target languages

Words of a name hold letters and numbers, and changing the case of these gives no sign. So a name in
any case is one piece of a path, and an underscore stands between words only.
-/

namespace Scaffold

namespace Text

/-- No mapping of the tables gives the character with this code. -/
def Spares (specials : List (Nat × List Nat)) (shifts : List Shift) (n : Nat) : Prop :=
  (∀ s ∈ specials, n ∉ s.2) ∧
    ∀ s ∈ shifts, n < s.image ∨ s.image + (s.run.last - s.run.first) < n

instance (specials : List (Nat × List Nat)) (shifts : List Shift) (n : Nat) :
    Decidable (Spares specials shifts n) :=
  inferInstanceAs (Decidable (_ ∧ _))

theorem toNat_ofNat_ne {c : Char} {n : Nat} (hc : c ≠ Char.ofNat 0) (h : n ≠ c.toNat) :
    Char.ofNat n ≠ c := by
  by_cases hn : n.isValidChar
  · intro hcn
    rw [← hcn] at h
    exact h (by rw [Char.ofNat, dif_pos hn]; rfl)
  · rw [Char.ofNat, dif_neg hn]
    exact fun h => hc h.symm

theorem not_mem_mapCase {specials : List (Nat × List Nat)} {shifts : List Shift} {c d : Char}
    (hd : d ≠ Char.ofNat 0) (h : Spares specials shifts d.toNat) (hc : c ≠ d) :
    d ∉ mapCase specials shifts c := by
  unfold mapCase
  split
  · rename_i n image hfind
    intro hmem
    obtain ⟨k, hk, hkd⟩ := List.mem_map.1 hmem
    refine toNat_ofNat_ne hd (fun hn => ?_) hkd
    exact h.1 _ (List.mem_of_find?_eq_some hfind) (hn ▸ hk)
  · split
    · rename_i s hfind
      have hrun := List.find?_some hfind
      simp only [Run.has, Bool.and_eq_true, decide_eq_true_eq] at hrun
      have := h.2 s (List.mem_of_find?_eq_some hfind)
      simp only [List.mem_singleton]
      exact fun hmem => toNat_ofNat_ne hd (by omega) hmem.symm
    · simpa using hc.symm

/-- Signs that stay what they are in every case, and that nothing else becomes. -/
def caselessSigns : List Char :=
  ['/', '_', ' ', '\n', '\r']

theorem eq_of_toLower {c d : Char} (hd : d ∈ caselessSigns) (h : c.toLower = d) : c = d := by
  unfold Char.toLower at h
  split at h
  · rename_i hc
    have hval := congrArg (fun c => c.val.toNat) h
    simp only [ge_iff_le, UInt32.le_iff_toNat_le, UInt32.toNat_add] at hc hval
    simp only [caselessSigns, List.mem_cons, List.not_mem_nil, or_false] at hd
    obtain rfl | rfl | rfl | rfl | rfl := hd <;> simp at hc hval <;> omega
  · exact h

theorem eq_of_toUpper {c d : Char} (hd : d ∈ caselessSigns) (h : c.toUpper = d) : c = d := by
  unfold Char.toUpper at h
  split at h
  · rename_i hc
    have hval := congrArg (fun c => c.val.toNat) h
    simp only [UInt32.le_iff_toNat_le, UInt32.toNat_add] at hc hval
    simp only [caselessSigns, List.mem_cons, List.not_mem_nil, or_false] at hd
    obtain rfl | rfl | rfl | rfl | rfl := hd <;> simp at hc hval <;> omega
  · exact h

theorem caselessSigns_spared : ∀ d ∈ caselessSigns, d ≠ Char.ofNat 0 ∧
    Spares toLowerSpecials toLowerShifts d.toNat ∧
      Spares toUpperSpecials toUpperShifts d.toNat := by
  simp only [caselessSigns, List.forall_mem_cons, List.not_mem_nil, false_implies, implies_true,
    and_true]
  decide +kernel

theorem not_mem_toLower {c d : Char} (hd : d ∈ caselessSigns) (hc : c ≠ d) : d ∉ toLower c := by
  obtain ⟨hzero, hspared, -⟩ := caselessSigns_spared d hd
  unfold toLower
  split
  · exact fun hmem => hc (eq_of_toLower hd (List.mem_singleton.1 hmem).symm)
  · exact not_mem_mapCase hzero hspared hc

theorem not_mem_toUpper {c d : Char} (hd : d ∈ caselessSigns) (hc : c ≠ d) : d ∉ toUpper c := by
  obtain ⟨hzero, -, hspared⟩ := caselessSigns_spared d hd
  unfold toUpper
  split
  · exact fun hmem => hc (eq_of_toUpper hd (List.mem_singleton.1 hmem).symm)
  · exact not_mem_mapCase hzero hspared hc

theorem toLower_ne_nil (c : Char) : toLower c ≠ [] := by
  have himages : ∀ s ∈ toLowerSpecials, s.2 ≠ [] := by decide
  unfold toLower mapCase
  split
  · simp
  · split
    · rename_i hfind
      simpa using himages _ (List.mem_of_find?_eq_some hfind)
    · split <;> simp

end Text

namespace Naming

/-- Cutting drops the characters that are neither letters nor numbers, and nothing else. -/
theorem flatten_pieces (previous : Option Char) (cs : List Char) :
    (pieces previous cs).flatten = cs.filter Text.isAlnum := by
  induction cs generalizing previous with
  | nil => rfl
  | cons c cs ih =>
    have hrest := ih (some c)
    rw [pieces]
    by_cases hc : Text.isAlnum c = true
    · rw [if_pos hc, List.filter_cons_of_pos hc, ← hrest]
      rcases pieces (some c) cs with _ | ⟨word, words⟩
      · rfl
      · dsimp only
        split <;> rfl
    · rw [if_neg hc, List.filter_cons_of_neg hc, List.flatten_cons, ih none]
      rfl

/-- Words are made of the letters and numbers of the name, in lower case. -/
theorem exists_of_mem_words {name word : String} {d : Char} (hword : word ∈ words name)
    (hd : d ∈ word.toList) : ∃ c ∈ name.toList, Text.isAlnum c = true ∧ d ∈ Text.toLower c := by
  obtain ⟨piece, hpiece, rfl⟩ := List.mem_map.1 hword
  rw [String.toList_ofList] at hd
  obtain ⟨c, hc, hd⟩ := List.mem_flatMap.1 hd
  have hmem : c ∈ (pieces none name.toList).flatten :=
    List.mem_flatten.2 ⟨piece, List.mem_of_mem_filter hpiece, hc⟩
  rw [flatten_pieces] at hmem
  obtain ⟨hmem, halnum⟩ := List.mem_filter.1 hmem
  exact ⟨c, hmem, halnum, hd⟩

/-- Words hold no signs. -/
theorem not_mem_of_mem_words {name word : String} (hword : word ∈ words name) {d : Char}
    (hd : d ∈ Text.caselessSigns) : d ∉ word.toList := by
  intro hmem
  obtain ⟨c, -, halnum, hmem⟩ := exists_of_mem_words hword hmem
  refine Text.not_mem_toLower hd (fun hcd => ?_) hmem
  have hsigns : Text.caselessSigns.all (!Text.isAlnum ·) = true := by decide
  have hsign := List.all_eq_true.1 hsigns d hd
  rw [← hcd, halnum] at hsign
  cases hsign

theorem ne_nil_of_mem_words {name word : String} (hword : word ∈ words name) : word.toList ≠ [] := by
  obtain ⟨piece, hpiece, rfl⟩ := List.mem_map.1 hword
  rw [String.toList_ofList]
  intro hnil
  have hne : piece ≠ [] := by simpa using (List.mem_filter.1 hpiece).2
  obtain ⟨c, cs, rfl⟩ := List.exists_cons_of_ne_nil hne
  exact Text.toLower_ne_nil c (List.flatMap_eq_nil_iff.1 hnil c (by simp))

theorem not_mem_capitalize {word : String} {d : Char} (hd : d ∈ Text.caselessSigns)
    (h : d ∉ word.toList) : d ∉ (capitalize word).toList := by
  unfold capitalize
  split
  · simp
  · rename_i c cs hcs
    rw [hcs, List.mem_cons, not_or] at h
    rw [String.toList_ofList, List.mem_append, not_or]
    exact ⟨Text.not_mem_toUpper hd (Ne.symm h.1), h.2⟩

theorem not_mem_join {d : Char} {texts : List String} (h : ∀ s ∈ texts, d ∉ s.toList) :
    d ∉ (String.join texts).toList := by
  induction texts with
  | nil => simp
  | cons s rest ih =>
    rw [String.join_cons, String.toList_append, List.mem_append, not_or]
    exact ⟨h s (by simp), ih fun t ht => h t (by simp [ht])⟩

theorem not_mem_pascal {d : Char} (hd : d ∈ Text.caselessSigns) (name : String) :
    d ∉ (pascal name).toList := by
  refine not_mem_join fun s hs => ?_
  obtain ⟨word, hword, rfl⟩ := List.mem_map.1 hs
  exact not_mem_capitalize hd (not_mem_of_mem_words hword hd)

theorem slash_not_mem_pascal (name : String) : '/' ∉ (pascal name).toList :=
  not_mem_pascal (by decide) name

theorem slash_not_mem_camel (name : String) : '/' ∉ (camel name).toList := by
  unfold camel
  split
  · simp
  · rename_i first rest hwords
    have hslash : ∀ word ∈ first :: rest, '/' ∉ word.toList := fun word hword =>
      not_mem_of_mem_words (hwords ▸ hword) (by decide)
    rw [String.toList_append, List.mem_append, not_or]
    refine ⟨hslash first (by simp), not_mem_join fun s hs => ?_⟩
    obtain ⟨word, hword, rfl⟩ := List.mem_map.1 hs
    exact not_mem_capitalize (by decide) (hslash word (by simp [hword]))

theorem slash_not_mem_snake (name : String) : '/' ∉ (snake name).toList := by
  have hwords : ∀ texts : List String, (∀ s ∈ texts, '/' ∉ s.toList) →
      '/' ∉ (Text.joinWith "_" texts).toList := by
    intro texts h
    induction texts with
    | nil => simp [Text.joinWith]
    | cons s rest ih =>
      cases rest with
      | nil => exact h s (by simp)
      | cons t rest =>
        have := ih fun x hx => h x (by simp [hx])
        simpa [Text.joinWith, h s (by simp)] using this
  exact hwords _ fun word hword => not_mem_of_mem_words hword (by decide)

/-- A name in this case does not start with an underscore. -/
theorem head_snake (name : String) : (snake name).toList.head? ≠ some '_' := by
  unfold snake
  cases hwords : words name with
  | nil => simp [Text.joinWith]
  | cons first rest =>
    have hfirst : first ∈ words name := by simp [hwords]
    have hhead : (Text.joinWith "_" (first :: rest)).toList.head? = first.toList.head? := by
      cases rest with
      | nil => rfl
      | cons second rest => simp [Text.joinWith, List.head?_append_of_ne_nil _ (ne_nil_of_mem_words hfirst)]
    rw [hhead]
    exact fun h => not_mem_of_mem_words hfirst (by decide) (List.mem_of_head? h)

end Naming
end Scaffold
