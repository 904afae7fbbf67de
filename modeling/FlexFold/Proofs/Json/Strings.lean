import FlexFold.Json.Lexeme
import FlexFold.Json.Printer

/-!
Strings are read as they are printed.
-/

namespace FlexFold.Json

theorem hexValue?_hexChar : ∀ d < 16, hexValue? (hexChar d) = some d := by decide

/-- The escape of a control character. -/
theorem hexQuad_hexChar {n : Nat} (hn : n < 0x20) (rest : List Char) :
    hexQuad ('0' :: '0' :: hexChar (n / 16) :: hexChar (n % 16) :: rest) = .ok (n, rest) := by
  have hzero : hexValue? '0' = some 0 := by decide
  simp only [hexQuad, hzero, hexValue?_hexChar (n / 16) (by omega),
    hexValue?_hexChar (n % 16) (Nat.mod_lt n (by omega))]
  congr 2
  omega

theorem escape_simple {c d : Char} (hc : c ≠ 'u') (h : simpleEscape? c = some d)
    (rest : List Char) : escape (c :: rest) = .ok (d, rest) := by
  simp [escape, hc, h]

theorem escape_control {c : Char} (hc : c.toNat < 0x20) (rest : List Char) :
    escape ('u' :: '0' :: '0' :: hexChar (c.toNat / 16) :: hexChar (c.toNat % 16) :: rest) =
      .ok (c, rest) := by
  have htrailing : isTrailing c.toNat = false := by
    simp [isTrailing]
    omega
  have hleading : isLeading c.toNat = false := by
    simp [isLeading]
    omega
  simp only [escape, if_true, unicodeEscape, hexQuad_hexChar hc, htrailing, hleading,
    Bool.false_eq_true, if_false, Char.ofNat_toNat]

theorem stringOnto_escape {before s rest : List Char} {c : Char}
    (h : escape s = .ok (c, rest)) :
    stringOnto before ('\\' :: s) = stringOnto (c :: before) rest := by
  rw [stringOnto]
  simp only [Char.reduceEq, if_false, if_true]
  split
  · next h' => simp [h] at h'
  · next d t h' =>
      simp only [h, Except.ok.injEq, Prod.mk.injEq] at h'
      rw [h'.1, h'.2]

/-- The characters that are escaped by a letter or by themselves. -/
def letterEscapes : List (Char × Char) :=
  [('"', '"'), ('\\', '\\'), ('\x08', 'b'), ('\t', 't'), ('\n', 'n'), ('\x0c', 'f'), ('\r', 'r')]

theorem simpleEscape?_letter :
    ∀ p ∈ letterEscapes, p.2 ≠ 'u' ∧ simpleEscape? p.2 = some p.1 := by decide

theorem escapeBefore_letter {p : Char × Char} (hp : p ∈ letterEscapes) (rest : List Char) :
    escapeBefore p.1 rest = '\\' :: p.2 :: rest := by
  simp only [letterEscapes, List.mem_cons, List.not_mem_nil, or_false] at hp
  rcases hp with rfl | rfl | rfl | rfl | rfl | rfl | rfl <;> rfl

theorem ne_of_not_mem_letterEscapes {c : Char} (h : c ∉ letterEscapes.map Prod.fst) :
    c ≠ '"' ∧ c ≠ '\\' ∧ c ≠ '\x08' ∧ c ≠ '\t' ∧ c ≠ '\n' ∧ c ≠ '\x0c' ∧ c ≠ '\r' := by
  simpa [letterEscapes] using h

/-- One printed character is read back. -/
theorem stringOnto_escapeBefore (before : List Char) (c : Char) (rest : List Char) :
    stringOnto before (escapeBefore c rest) = stringOnto (c :: before) rest := by
  by_cases hletter : c ∈ letterEscapes.map Prod.fst
  · obtain ⟨p, hp, rfl⟩ := List.mem_map.mp hletter
    obtain ⟨hu, hsimple⟩ := simpleEscape?_letter p hp
    rw [escapeBefore_letter hp]
    exact stringOnto_escape (escape_simple hu hsimple rest)
  · have hne := ne_of_not_mem_letterEscapes hletter
    by_cases hcontrol : c.toNat < 0x20
    · simp only [escapeBefore, hne, hcontrol, if_false, if_true]
      exact stringOnto_escape (escape_control hcontrol rest)
    · have hprinted : isControl c = false := by simpa [isControl] using hcontrol
      simp only [escapeBefore, hne, hcontrol, if_false]
      rw [stringOnto]
      simp [hne, hprinted]

theorem stringOnto_foldr (before chars tail : List Char) :
    stringOnto before (chars.foldr escapeBefore ('"' :: tail)) =
      .ok (String.ofList (before.reverse ++ chars), tail) := by
  induction chars generalizing before with
  | nil => rw [List.foldr_nil, stringOnto, if_pos rfl, List.append_nil]
  | cons c chars ih =>
      rw [List.foldr_cons, stringOnto_escapeBefore, ih, List.reverse_cons, List.append_assoc]
      rfl

theorem stringBody_foldr (s : String) (tail : List Char) :
    stringBody (s.toList.foldr escapeBefore ('"' :: tail)) = .ok (s, tail) := by
  rw [stringBody, stringOnto_foldr]
  simp

end FlexFold.Json
