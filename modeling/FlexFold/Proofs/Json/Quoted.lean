import FlexFold.Proofs.Json.Grammar
import FlexFold.Proofs.Json.Strings

/-!
Strings are taken off the front of a text exactly if they are spelled there.
-/

namespace FlexFold.Json

/-! ### Escapes -/

theorem hexQuad_eq_ok_iff {s t : List Char} {n : Nat} :
    hexQuad s = .ok (n, t) ↔ ∃ quad, SpellsQuad n quad ∧ s = quad ++ t := by
  constructor
  · intro h
    unfold hexQuad at h
    split at h
    · next a b c d u =>
        split at h
        · next ha hb hc hd =>
            cases h
            exact ⟨[a, b, c, d], .mk ha hb hc hd, rfl⟩
        · cases h
    · cases h
  · rintro ⟨quad, ⟨ha, hb, hc, hd⟩, rfl⟩
    simp [hexQuad, ha, hb, hc, hd]

theorem simpleEscape?_eq_some_iff {c d : Char} :
    simpleEscape? d = some c ↔ (d, c) ∈ escapeLetters := by
  constructor
  · intro h
    unfold simpleEscape? at h
    repeat' split at h
    all_goals first
      | (subst_vars; cases h; decide)
      | cases h
  · intro h
    simp only [escapeLetters, List.mem_cons, List.not_mem_nil, or_false, Prod.mk.injEq] at h
    rcases h with h | h | h | h | h | h | h | h <;> rw [h.1, h.2] <;> rfl

/-- The second half of a pair of surrogates. -/
theorem trailingEscape_eq_ok_iff {n : Nat} {s t : List Char} {c : Char} :
    trailingEscape n s = .ok (c, t) ↔
      ∃ m quad, SpellsQuad m quad ∧ isTrailing m ∧ s = '\\' :: 'u' :: (quad ++ t) ∧
        c = Char.ofNat ((n - 0xD800) * 0x400 + (m - 0xDC00) + 0x10000) := by
  constructor
  · intro h
    unfold trailingEscape at h
    split at h
    · cases h
    split at h
    · next hbackslash =>
        split at h
        · cases h
        split at h
        · next hletter =>
            split at h
            · cases h
            · next m u hquad =>
                split at h
                · next htrailing =>
                    simp only [Except.ok.injEq, Prod.mk.injEq] at h
                    obtain ⟨hc, rfl⟩ := h
                    obtain ⟨quad, hspells, rfl⟩ := hexQuad_eq_ok_iff.mp hquad
                    exact ⟨m, quad, hspells, htrailing, by rw [hbackslash, hletter], hc.symm⟩
                · simp at h
        · cases h
    · cases h
  · rintro ⟨m, quad, hspells, htrailing, rfl, hc⟩
    have hquad : hexQuad (quad ++ t) = .ok (m, t) := hexQuad_eq_ok_iff.mpr ⟨quad, hspells, rfl⟩
    simp only [trailingEscape, if_true, hquad, htrailing, hc]

theorem escape_eq_ok_iff {s t : List Char} {c : Char} :
    escape s = .ok (c, t) ↔ ∃ e, Escapes c e ∧ s = e ++ t := by
  constructor
  · intro h
    unfold escape at h
    split at h
    · cases h
    · next d u =>
        split at h
        · next hletter =>
            subst hletter
            unfold unicodeEscape at h
            split at h
            · cases h
            · next n v hquad =>
                obtain ⟨quad, hspells, rfl⟩ := hexQuad_eq_ok_iff.mp hquad
                split at h
                · cases h
                · next htrailing =>
                    split at h
                    · next hleading =>
                        obtain ⟨m, quad', hspells', htrailing', rfl, hc⟩ :=
                          trailingEscape_eq_ok_iff.mp h
                        rw [hc]
                        refine ⟨_, .pair hspells hspells' hleading htrailing', ?_⟩
                        simp only [List.cons_append, List.append_assoc]
                    · next hleading =>
                        simp only [Except.ok.injEq, Prod.mk.injEq] at h
                        obtain ⟨hc, rfl⟩ := h
                        rw [← hc]
                        exact ⟨_, .unit hspells (Bool.eq_false_iff.mpr hleading)
                          (Bool.eq_false_iff.mpr htrailing), rfl⟩
        · split at h
          · next hsimple =>
              cases h
              exact ⟨[d], .letter (simpleEscape?_eq_some_iff.mp hsimple), rfl⟩
          · cases h
  · rintro ⟨e, he, rfl⟩
    cases he with
    | @letter _ d h =>
        have hne : d ≠ 'u' := by
          rintro rfl
          simp [escapeLetters] at h
        simp [escape, hne, simpleEscape?_eq_some_iff.mpr h]
    | @unit n quad h hleading htrailing =>
        have hquad : hexQuad (quad ++ t) = .ok (n, t) := hexQuad_eq_ok_iff.mpr ⟨quad, h, rfl⟩
        simp only [escape, List.cons_append, if_true, unicodeEscape, hquad, hleading, htrailing,
          Bool.false_eq_true, if_false]
    | @pair n m quad quad' h h' hleading htrailing =>
        have hnot : isTrailing n = false := by
          simp only [isLeading, isTrailing, Bool.and_eq_true, decide_eq_true_eq,
            Bool.and_eq_false_iff, decide_eq_false_iff_not] at hleading ⊢
          omega
        have hquad : hexQuad (quad ++ '\\' :: 'u' :: (quad' ++ t)) =
            .ok (n, '\\' :: 'u' :: (quad' ++ t)) := hexQuad_eq_ok_iff.mpr ⟨quad, h, rfl⟩
        simp only [escape, List.cons_append, List.append_assoc, if_true, unicodeEscape, hquad,
          hleading, hnot, Bool.false_eq_true, if_false]
        exact trailingEscape_eq_ok_iff.mpr ⟨m, quad', h', htrailing, rfl, rfl⟩

/-! ### Strings -/

/-- The characters between the quotes, after those that were read back to front. -/
theorem stringOnto_eq_ok_iff {before s t : List Char} {text : String} :
    stringOnto before s = .ok (text, t) ↔
      ∃ chars u, SpellsChars chars u ∧ s = u ++ '"' :: t ∧
        text = String.ofList (before.reverse ++ chars) := by
  constructor
  · intro h
    fun_induction stringOnto before s with
    | case1 => cases h
    | case2 before u =>
        cases h
        exact ⟨[], [], .nil, rfl, by rw [List.append_nil]⟩
    | case3 => cases h
    | case4 before u d u' he _ ih =>
        obtain ⟨e, hescapes, rfl⟩ := escape_eq_ok_iff.mp he
        obtain ⟨chars, v, hchars, rfl, rfl⟩ := ih h
        exact ⟨d :: chars, _, .escaped hescapes hchars, by simp, by simp⟩
    | case5 => cases h
    | case6 before c u hquote hbackslash hcontrol ih =>
        obtain ⟨chars, v, hchars, rfl, rfl⟩ := ih h
        exact ⟨c :: chars, _, .plain hquote hbackslash (by simpa using hcontrol) hchars, rfl,
          by simp⟩
  · rintro ⟨chars, u, hchars, rfl, rfl⟩
    induction hchars generalizing before with
    | nil => rw [List.nil_append, stringOnto, if_pos rfl, List.append_nil]
    | @plain c chars u hquote hbackslash hcontrol _ ih =>
        have hrest := @ih (c :: before)
        rw [List.reverse_cons, List.append_assoc, List.singleton_append] at hrest
        rw [List.cons_append, stringOnto, if_neg hquote, if_neg hbackslash,
          if_neg (by simp [hcontrol])]
        exact hrest
    | @escaped c chars e u hc _ ih =>
        have hrest := @ih (c :: before)
        have hescape : escape (e ++ (u ++ '"' :: t)) = .ok (c, u ++ '"' :: t) :=
          escape_eq_ok_iff.mpr ⟨e, hc, rfl⟩
        rw [List.reverse_cons, List.append_assoc, List.singleton_append] at hrest
        rw [List.cons_append, List.append_assoc, stringOnto_escape hescape]
        exact hrest

theorem stringBody_eq_ok_iff {s t : List Char} {text : String} :
    stringBody s = .ok (text, t) ↔
      ∃ chars u, SpellsChars chars u ∧ s = u ++ '"' :: t ∧ text = String.ofList chars :=
  stringOnto_eq_ok_iff

end FlexFold.Json
