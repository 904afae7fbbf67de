import FlexFold.Glob.Paths
import FlexFold.Proofs.Attempt
import FlexFold.Proofs.Store.Names

/-!
How patterns are read. The rules of `ReadsAs` give the tokens of a text; from them it follows that
a pattern means the same as a whole and component by component, where the tokens of two components
have a slash between them, or `**` that stands for its slash as well.
-/

namespace FlexFold.Glob

open Attempt (map_eq_ok_iff)

variable {before before' : Option Char} {text rest : List Char}
  {tokens : List Token} {p : Pattern}

/-! ### Reading by rules -/

/-- Whether a component begins after a character. -/
def Begins (before : Option Char) : Prop := before = none ∨ before = some '/'

/-- The tokens that a text is read as after the character `before`. -/
inductive ReadsAs : Option Char → List Char → List Token → Prop where
  | nil (before : Option Char) : ReadsAs before [] []
  | anyChar {before : Option Char} {rest : List Char} {tokens : List Token} :
      ReadsAs (some '?') rest tokens → ReadsAs before ('?' :: rest) (.anyChar :: tokens)
  | anyComponents {before : Option Char} (hbegins : Begins before) :
      ReadsAs before ['*', '*'] [.anyComponents]
  | anyComponentsSlash {before : Option Char} {rest : List Char} {tokens : List Token}
      (hbegins : Begins before) :
      ReadsAs (some '/') rest tokens →
      ReadsAs before ('*' :: '*' :: '/' :: rest) (.anyComponents :: tokens)
  | anySequence {before : Option Char} {rest : List Char} {tokens : List Token}
      (hstar : rest.head? ≠ some '*') :
      ReadsAs (some '*') rest tokens → ReadsAs before ('*' :: rest) (.anySequence :: tokens)
  | except {before : Option Char} {text body rest : List Char} {tokens : List Token}
      (hbody : classBody text = some (body, rest)) :
      ReadsAs (some ']') rest tokens →
      ReadsAs before ('[' :: '!' :: text) (.except (ClassPart.ofChars body) :: tokens)
  | within {before : Option Char} {text body rest : List Char} {tokens : List Token}
      (hmark : text.head? ≠ some '!') (hbody : classBody text = some (body, rest)) :
      ReadsAs (some ']') rest tokens →
      ReadsAs before ('[' :: text) (.within (ClassPart.ofChars body) :: tokens)
  | char {before : Option Char} {c : Char} {rest : List Char} {tokens : List Token}
      (hplain : c ≠ '?' ∧ c ≠ '*' ∧ c ≠ '[') :
      ReadsAs (some c) rest tokens → ReadsAs before (c :: rest) (.char c :: tokens)

theorem ReadsAs.tokensFrom_eq (h : ReadsAs before text tokens) (index : Nat) :
    tokensFrom index before text = .ok tokens := by
  induction h generalizing index with
  | nil => rw [tokensFrom]
  | anyChar _ ih =>
      rw [tokensFrom, ih]
      rfl
  | anyComponents hbegins =>
      rw [tokensFrom]
      exact if_pos hbegins
  | anyComponentsSlash hbegins _ ih =>
      rw [tokensFrom, ih]
      exact if_pos hbegins
  | anySequence hstar _ ih =>
      rw [tokensFrom, ih]
      · rfl
      all_goals
        rintro rest rfl
        exact hstar rfl
  | except hbody _ ih =>
      rw [tokensFrom]
      split
      · rename_i hbody'
        obtain ⟨rfl, rfl⟩ := Prod.mk.inj (Option.some.inj (hbody'.symm.trans hbody))
        rw [ih]
        rfl
      · rename_i hnone
        simp [hbody] at hnone
  | within hmark hbody _ ih =>
      rw [tokensFrom]
      · split
        · rename_i hbody'
          obtain ⟨rfl, rfl⟩ := Prod.mk.inj (Option.some.inj (hbody'.symm.trans hbody))
          rw [ih]
          rfl
        · rename_i hnone
          simp [hbody] at hnone
      · rintro rest rfl
        exact hmark rfl
  | char hplain _ ih =>
      rw [tokensFrom, ih]
      · rfl
      all_goals simp_all

theorem readsAs_of_tokensFrom (h : tokensFrom index before text = .ok tokens) :
    ReadsAs before text tokens := by
  fun_induction tokensFrom index before text generalizing tokens with
  | case1 =>
      obtain rfl := Except.ok.inj h
      exact .nil _
  | case2 _ _ _ ih =>
      obtain ⟨tokens, htokens, rfl⟩ := map_eq_ok_iff.mp h
      exact .anyChar (ih htokens)
  | case3 | case6 | case7 | case10 | case12 => simp at h
  | case4 _ _ hbegins =>
      obtain rfl := Except.ok.inj h
      exact .anyComponents hbegins
  | case5 _ _ hbegins _ _ ih =>
      obtain ⟨tokens, htokens, rfl⟩ := map_eq_ok_iff.mp h
      exact .anyComponentsSlash hbegins (ih htokens)
  | case8 _ _ rest _ hstar ih =>
      obtain ⟨tokens, htokens, rfl⟩ := map_eq_ok_iff.mp h
      refine .anySequence (fun e => ?_) (ih htokens)
      obtain ⟨_, rfl⟩ := List.head?_eq_some_iff.mp e
      exact hstar _ rfl
  | case9 _ _ _ _ _ hbody ih =>
      obtain ⟨tokens, htokens, rfl⟩ := map_eq_ok_iff.mp h
      exact .except hbody (ih htokens)
  | case11 _ _ rest hmark _ _ hbody ih =>
      obtain ⟨tokens, htokens, rfl⟩ := map_eq_ok_iff.mp h
      refine .within (fun e => ?_) hbody (ih htokens)
      obtain ⟨_, rfl⟩ := List.head?_eq_some_iff.mp e
      exact hmark _ rfl
  | case13 _ _ _ _ hquestion _ _ hstar _ hbracket ih =>
      obtain ⟨tokens, htokens, rfl⟩ := map_eq_ok_iff.mp h
      exact .char ⟨hquestion, hstar, hbracket⟩ (ih htokens)

/-- What stands before a text matters only as far as a component may begin there. -/
theorem ReadsAs.congr (h : ReadsAs before text tokens) (hbegins : Begins before → Begins before') :
    ReadsAs before' text tokens := by
  cases h with
  | nil => exact .nil before'
  | anyChar h => exact .anyChar h
  | anyComponents h => exact .anyComponents (hbegins h)
  | anyComponentsSlash h hrest => exact .anyComponentsSlash (hbegins h) hrest
  | anySequence hstar h => exact .anySequence hstar h
  | except hbody h => exact .except hbody h
  | within hmark hbody h => exact .within hmark hbody h
  | char hplain h => exact .char hplain h

/-! ### Components -/

/-- A pattern for a single component: no slash stands in it for itself, and `**` stands alone. -/
structure Pattern.IsComponent (p : Pattern) : Prop where
  no_slash : .char '/' ∉ p.tokens
  alone : .anyComponents ∈ p.tokens → p.tokens = [.anyComponents]

/-- A class ends at the first bracket behind its first character. -/
theorem exists_of_classBody {body : List Char} (h : classBody text = some (body, rest)) :
    ∃ c inner bracket, text = c :: inner ∧ body = c :: inner.takeWhile (· ≠ ']') ∧
      inner.dropWhile (· ≠ ']') = bracket :: rest := by
  unfold classBody at h
  split at h
  · simp at h
  · rename_i c inner
    split at h
    · rename_i bracket _ hdrop
      obtain ⟨rfl, rfl⟩ := Prod.mk.inj (Option.some.inj h)
      exact ⟨c, inner, bracket, rfl, rfl, hdrop⟩
    · simp at h

theorem mem_of_classBody {body : List Char} {c : Char} (h : classBody text = some (body, rest))
    (hc : c ∈ rest) : c ∈ text := by
  obtain ⟨first, inner, bracket, rfl, -, hdrop⟩ := exists_of_classBody h
  have hsub : (bracket :: rest).Sublist inner := hdrop ▸ inner.dropWhile_sublist _
  exact List.mem_cons_of_mem first (hsub.subset (List.mem_cons_of_mem bracket hc))

theorem classBody_append {body : List Char} (h : classBody text = some (body, rest))
    (more : List Char) : classBody (text ++ more) = some (body, rest ++ more) := by
  obtain ⟨first, inner, bracket, rfl, rfl, hdrop⟩ := exists_of_classBody h
  have htake : ¬ (inner.takeWhile (· ≠ ']')).length = inner.length := by
    intro hlength
    have hall := congrArg List.length (inner.takeWhile_append_dropWhile (p := (· ≠ ']')))
    rw [hdrop, List.length_append, List.length_cons] at hall
    omega
  simp only [List.cons_append, classBody]
  rw [List.dropWhile_append, hdrop, List.takeWhile_append, if_neg htake]
  rfl

theorem ReadsAs.no_slash (h : ReadsAs before text tokens) (hslash : '/' ∉ text) :
    .char '/' ∉ tokens := by
  induction h with
  | nil | anyComponents => simp
  | anyComponentsSlash => simp at hslash
  | anyChar _ ih | anySequence _ _ ih =>
      have hrest := ih fun hmem => hslash (List.mem_cons_of_mem _ hmem)
      simp [hrest]
  | except hbody _ ih =>
      have hrest := ih fun hmem => hslash (by simp [mem_of_classBody hbody hmem])
      simp [hrest]
  | within _ hbody _ ih =>
      have hrest := ih fun hmem => hslash (by simp [mem_of_classBody hbody hmem])
      simp [hrest]
  | char _ _ ih =>
      simp only [List.mem_cons, not_or] at hslash
      simp [ih hslash.2, hslash.1]

theorem ReadsAs.alone (h : ReadsAs before text tokens) (hslash : '/' ∉ text)
    (hmem : .anyComponents ∈ tokens) : Begins before ∧ tokens = [.anyComponents] := by
  -- After a character of a component no other component begins.
  have hinside : ∀ {c : Char}, c ≠ '/' → ¬ Begins (some c) := by
    rintro c hc (h | h)
    · simp at h
    · exact hc (Option.some.inj h)
  induction h with
  | nil => simp at hmem
  | anyComponents hbegins => exact ⟨hbegins, rfl⟩
  | anyComponentsSlash => simp at hslash
  | anyChar _ ih | anySequence _ _ ih =>
      have hrest := ih (fun hmem => hslash (List.mem_cons_of_mem _ hmem)) (by simpa using hmem)
      exact absurd hrest.1 (hinside (by decide))
  | except hbody _ ih =>
      have hrest := ih (fun hmem => hslash (by simp [mem_of_classBody hbody hmem]))
        (by simpa using hmem)
      exact absurd hrest.1 (hinside (by decide))
  | within _ hbody _ ih =>
      have hrest := ih (fun hmem => hslash (by simp [mem_of_classBody hbody hmem]))
        (by simpa using hmem)
      exact absurd hrest.1 (hinside (by decide))
  | char _ _ ih =>
      simp only [List.mem_cons, not_or] at hslash
      have hrest := ih hslash.2 (by simpa using hmem)
      exact absurd hrest.1 (hinside (Ne.symm hslash.1))

/-! ### A whole of components -/

/-- The tokens of a component, a slash, and further tokens. -/
def glue : List Token → List Token → List Token
  | [], rest => .char '/' :: rest
  | [.anyComponents], rest => .anyComponents :: rest
  | token :: tokens, rest => token :: glue tokens rest

theorem ReadsAs.append {more : List Char} {further : List Token} (h : ReadsAs before text tokens)
    (hslash : '/' ∉ text) (hmore : ReadsAs (some '/') more further) :
    ReadsAs before (text ++ '/' :: more) (glue tokens further) := by
  induction h with
  | nil => exact .char (by decide) hmore
  | anyComponents hbegins => exact .anyComponentsSlash hbegins hmore
  | anyComponentsSlash => simp at hslash
  | anyChar _ ih =>
      exact .anyChar (ih fun hmem => hslash (List.mem_cons_of_mem _ hmem))
  | @anySequence _ rest _ hstar _ ih =>
      refine .anySequence ?_ (ih fun hmem => hslash (List.mem_cons_of_mem _ hmem))
      cases rest with
      | nil => simp
      | cons c rest => exact hstar
  | except hbody _ ih =>
      exact .except (classBody_append hbody _)
        (ih fun hmem => hslash (by simp [mem_of_classBody hbody hmem]))
  | within hmark hbody _ ih =>
      refine .within ?_ (classBody_append hbody _)
        (ih fun hmem => hslash (by simp [mem_of_classBody hbody hmem]))
      obtain ⟨c, inner, _, rfl, -, -⟩ := exists_of_classBody hbody
      exact hmark
  | char hplain _ ih =>
      exact .char hplain (ih fun hmem => hslash (List.mem_cons_of_mem _ hmem))

/-- The tokens of some components with a slash between each two of them. -/
def joined : List Pattern → List Token
  | [] => []
  | [p] => p.tokens
  | p :: q :: rest => glue p.tokens (joined (q :: rest))

theorem Pattern.parse_eq_ok_iff {text : String} :
    Pattern.parse text = .ok p ↔ ReadsAs none text.toList p.tokens := by
  rw [Pattern.parse, map_eq_ok_iff]
  constructor
  · rintro ⟨tokens, htokens, hp⟩
    rw [← hp]
    exact readsAs_of_tokensFrom htokens
  · intro h
    exact ⟨p.tokens, h.tokensFrom_eq 0, rfl⟩

/-- Components with a slash between each two of them are read one after the other. -/
theorem readsAs_joined {pieces : List (List Char)} {components : List Pattern}
    (hread : pieces.map (fun piece => Pattern.parse (String.ofList piece)) = components.map .ok)
    (hne : pieces ≠ []) (hslash : ∀ piece ∈ pieces, '/' ∉ piece) (hbegins : Begins before) :
    ReadsAs before (Text.join '/' pieces) (joined components) := by
  induction pieces generalizing before components with
  | nil => exact absurd rfl hne
  | cons piece pieces ih =>
      cases components with
      | nil => simp at hread
      | cons p components =>
          obtain ⟨hp, hread⟩ := List.cons.inj hread
          obtain ⟨hpiece, hslash⟩ := List.forall_mem_cons.mp hslash
          rw [Pattern.parse_eq_ok_iff, String.toList_ofList] at hp
          replace hp : ReadsAs before piece p.tokens := hp.congr fun _ => hbegins
          cases pieces with
          | nil =>
              obtain rfl : components = [] := by simpa using hread.symm
              rw [Text.join_singleton, joined]
              exact hp
          | cons second pieces =>
              cases components with
              | nil => simp at hread
              | cons q components =>
                  rw [Text.join_cons_cons, joined]
                  exact hp.append hpiece (ih hread (by simp) hslash (.inr rfl))

/-- Nothing is dropped from a text that does not end in a slash. -/
theorem componentTexts_eq {cs : List Char} (hne : cs ≠ []) (hlast : cs.getLast? ≠ some '/') :
    componentTexts cs = (Text.split '/' cs).map String.ofList := by
  unfold componentTexts
  dsimp only
  split
  · rename_i rest hpieces
    have hsplit : Text.split '/' cs = rest.reverse ++ [[]] := by
      rw [← List.reverse_reverse (Text.split '/' cs), hpieces, List.reverse_cons]
    have hcs : cs = Text.join '/' (rest.reverse ++ [[]]) := by rw [← hsplit, Text.join_split]
    by_cases hrest : rest.reverse = []
    · rw [hrest] at hcs
      exact absurd hcs hne
    · rw [Text.join_concat '/' hrest] at hcs
      simp [hcs] at hlast
  · rw [List.reverse_reverse]

theorem no_slash_of_mem_componentTexts {cs : List Char} {piece : String}
    (h : piece ∈ componentTexts cs) : '/' ∉ piece.toList := by
  have hmem : piece.toList ∈ Text.split '/' cs := by
    unfold componentTexts at h
    dsimp only at h
    obtain ⟨chars, hchars, rfl⟩ := List.mem_map.mp h
    rw [String.toList_ofList]
    rw [List.mem_reverse] at hchars
    split at hchars
    · rename_i rest hpieces
      rw [← List.mem_reverse, hpieces]
      exact List.mem_cons_of_mem _ hchars
    · exact List.mem_reverse.mp hchars
  exact Text.not_mem_of_mem_split hmem

theorem Pattern.isComponent_of_parse {text : String} (h : Pattern.parse text = .ok p)
    (hslash : '/' ∉ text.toList) : p.IsComponent := by
  have hreads := Pattern.parse_eq_ok_iff.mp h
  exact ⟨hreads.no_slash hslash, fun hmem => (hreads.alone hslash hmem).2⟩

/-- What stands behind the slash of the root, and behind nothing in a relative pattern. -/
theorem eq_append_inner (cs : List Char) :
    cs = (if cs.head? == some '/' then ['/'] else []) ++
      if cs.head? == some '/' then cs.drop 1 else cs := by
  cases cs with
  | nil => rfl
  | cons c cs =>
      by_cases hc : c = '/'
      · simp [hc]
      · simp [hc]

/-- A pattern means the same as a whole and component by component. -/
theorem parse_spec {text : String} {glob : Glob} (h : Glob.parse text = .ok glob) :
    (∀ p ∈ glob.components, p.IsComponent) ∧
    (glob.directoriesOnly = false → Pattern.parse text =
      .ok ⟨(if glob.isAbsolute then [.char '/'] else []) ++ joined glob.components⟩) := by
  unfold Glob.parse at h
  split at h
  · simp at h
  · dsimp only at h
    split at h
    · simp at h
    · rename_i components hcomponents
      obtain rfl := Except.ok.inj h
      have htext := eq_append_inner text.toList
      generalize (if text.toList.head? == some '/' then text.toList.drop 1 else text.toList) =
        inner at hcomponents htext
      rw [Attempt.mapM_eq_ok_iff] at hcomponents
      refine ⟨fun p hp => ?_, fun hdirectories => ?_⟩
      · obtain ⟨piece, hpiece, hparse⟩ :=
          List.mem_map.mp (hcomponents ▸ List.mem_map_of_mem hp)
        refine Pattern.isComponent_of_parse hparse ?_
        split at hpiece
        · obtain rfl := List.mem_singleton.mp hpiece
          decide
        · exact no_slash_of_mem_componentTexts hpiece
      · have hlast : text.toList.getLast? ≠ some '/' := by simpa using hdirectories
        have hpieces : (if inner = [] then [""] else componentTexts inner) =
            (Text.split '/' inner).map String.ofList := by
          split
          · rename_i hnil
            rw [hnil]
            rfl
          · rename_i hne
            refine componentTexts_eq hne fun e => hlast ?_
            rw [htext, List.getLast?_append, e]
            rfl
        rw [hpieces, List.map_map] at hcomponents
        have hread {before : Option Char} (hbegins : Begins before) :
            ReadsAs before inner (joined components) := by
          have hreads := readsAs_joined hcomponents (Text.split_ne_nil '/' inner)
            (fun _ => Text.not_mem_of_mem_split) hbegins
          rwa [Text.join_split] at hreads
        rw [Pattern.parse_eq_ok_iff]
        dsimp only
        cases habsolute : text.toList.head? == some '/' with
        | true =>
            rw [habsolute] at htext
            rw [htext]
            exact .char (by decide) (hread (.inr rfl))
        | false =>
            rw [habsolute] at htext
            rw [htext]
            exact hread (.inl rfl)

end FlexFold.Glob
