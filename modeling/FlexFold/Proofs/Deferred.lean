import FlexFold.Directive.Value
import FlexFold.Proofs.ClassList

/-!
What the changes come to that directives make wait. There are only two, and neither touches what
the other one reads or writes. So any number of them in any order has one outcome: `flex` is
respelled where an inline layout waits, and one limit comes last where a stretched axis does.
-/

namespace FlexFold.Deferred

variable {changes more : List Deferred} {tokens others : List String} {token : String}

/-! ### The outcome of many changes -/

/-- A token after some changes. -/
def respell (changes : List Deferred) (token : String) : String :=
  if .inline ∈ changes ∧ token = "flex" then "inline-flex" else token

/-- The tokens of an element whose main axis is vertical. -/
def IsColumn (tokens : List String) : Prop := "flex-col" ∈ tokens ∨ "flex-col-reverse" ∈ tokens

instance (tokens : List String) : Decidable (IsColumn tokens) :=
  inferInstanceAs (Decidable (_ ∨ _))

/-- What a stretched axis adds. -/
def limit (tokens : List String) : String :=
  if IsColumn tokens then "max-h-full" else "max-w-full"

/-- What some changes add. -/
def limits (changes : List Deferred) (tokens : List String) : List String :=
  if .stretch ∈ changes then [limit tokens] else []

/-- The tokens after some changes. -/
def outcome (changes : List Deferred) (tokens : List String) : List String :=
  (tokens.map (respell changes) ++ limits changes tokens).eraseDups

theorem mem_limits_iff :
    token ∈ limits changes tokens ↔ .stretch ∈ changes ∧ token = limit tokens := by
  unfold limits
  split <;> simp [*]

theorem mem_outcome_iff :
    token ∈ outcome changes tokens ↔
      (∃ t ∈ tokens, respell changes t = token) ∨
        .stretch ∈ changes ∧ token = limit tokens := by
  rw [outcome, List.mem_eraseDups, List.mem_append, List.mem_map, mem_limits_iff]

theorem limit_eq (tokens : List String) :
    limit tokens = "max-h-full" ∨ limit tokens = "max-w-full" := by
  unfold limit
  split <;> simp

/-- What comes out is made of words if what went in was. -/
theorem isWord_of_mem_outcome (h : ∀ w ∈ tokens, Text.IsWord w) :
    ∀ w ∈ outcome changes tokens, Text.IsWord w := by
  intro w hw
  rcases mem_outcome_iff.mp hw with ⟨t, ht, rfl⟩ | ⟨-, rfl⟩
  · unfold respell
    split
    · decide
    · exact h t ht
  · rcases limit_eq tokens with hlimit | hlimit <;> rw [hlimit] <;> decide

theorem limit_congr (h : ∀ t, t ∈ tokens ↔ t ∈ others) : limit tokens = limit others := by
  have hcolumn : IsColumn tokens ↔ IsColumn others := by
    simp only [IsColumn, h]
  simp only [limit, hcolumn]

theorem respell_congr (h : ∀ change, change ∈ changes ↔ change ∈ more) :
    respell changes = respell more := by
  funext t
  simp only [respell, h]

/-- What is in an outcome depends on which changes and which tokens there are, not on their
order. -/
theorem mem_outcome_congr (hchanges : ∀ change, change ∈ changes ↔ change ∈ more)
    (htokens : ∀ t, t ∈ tokens ↔ t ∈ others) :
    token ∈ outcome changes tokens ↔ token ∈ outcome more others := by
  simp only [mem_outcome_iff, respell_congr hchanges, hchanges, htokens, limit_congr htokens]

/-- The outcome of some changes on the same tokens depends on nothing but which changes there
are. -/
theorem outcome_congr (h : ∀ change, change ∈ changes ↔ change ∈ more) (tokens : List String) :
    outcome changes tokens = outcome more tokens := by
  simp only [outcome, limits, respell_congr h, h]

/-! ### The two changes do not meddle with each other -/

/-- No token but `flex` and `inline-flex` is respelled, or a spelling of another one. -/
theorem respell_eq_iff {t : String} (hflex : token ≠ "flex") (hinline : token ≠ "inline-flex") :
    respell changes t = token ↔ t = token := by
  unfold respell
  split
  · next h => rw [h.2]; exact ⟨fun he => (hinline he.symm).elim, fun he => (hflex he.symm).elim⟩
  · rfl

theorem ne_limit (hcolumn : token ≠ "max-h-full") (hrow : token ≠ "max-w-full")
    (tokens : List String) : token ≠ limit tokens := by
  unfold limit
  split
  · exact hcolumn
  · exact hrow

theorem mem_outcome_iff_of_ne (hflex : token ≠ "flex") (hinline : token ≠ "inline-flex") :
    token ∈ outcome changes tokens ↔
      token ∈ tokens ∨ .stretch ∈ changes ∧ token = limit tokens := by
  simp only [mem_outcome_iff, respell_eq_iff hflex hinline, exists_eq_right]

/-- No change brings the token of a direction or takes it away. -/
theorem isColumn_outcome (changes : List Deferred) (tokens : List String) :
    IsColumn (outcome changes tokens) ↔ IsColumn tokens := by
  simp only [IsColumn, mem_outcome_iff_of_ne (by decide : "flex-col" ≠ "flex") (by decide),
    mem_outcome_iff_of_ne (by decide : "flex-col-reverse" ≠ "flex") (by decide),
    ne_limit (by decide : "flex-col" ≠ "max-h-full") (by decide),
    ne_limit (by decide : "flex-col-reverse" ≠ "max-h-full") (by decide), and_false, or_false]

theorem limits_outcome (changes more : List Deferred) (tokens : List String) :
    limits more (outcome changes tokens) = limits more tokens := by
  simp only [limits, limit, isColumn_outcome]

/-- Repetitions make no difference. -/
theorem outcome_eraseDups (changes : List Deferred) (tokens : List String) :
    outcome changes tokens.eraseDups = outcome changes tokens := by
  have hlimits : limits changes tokens.eraseDups = limits changes tokens := by
    rw [limits, limit_congr fun t => List.mem_eraseDups, limits]
  rw [outcome, hlimits, eraseDups_map_eraseDups_append, outcome]

theorem respell_respell (changes more : List Deferred) (token : String) :
    respell more (respell changes token) = respell (changes ++ more) token := by
  unfold respell
  by_cases hflex : token = "flex"
  · by_cases hinline : Deferred.inline ∈ changes <;> simp [hflex, hinline]
  · simp [hflex]

theorem map_respell_limits (changes more : List Deferred) (tokens : List String) :
    (limits changes tokens).map (respell more) = limits changes tokens := by
  have hflex : "flex" ≠ limit tokens := ne_limit (by decide) (by decide) tokens
  have hlimit : respell more (limit tokens) = limit tokens :=
    if_neg fun h => hflex h.2.symm
  unfold limits
  split
  · rw [List.map_singleton, hlimit]
  · rfl

/-- A limit is added once, however often a stretched axis waits. -/
theorem eraseDups_append_limits (tokens front : List String) (changes more : List Deferred) :
    (front ++ limits changes tokens ++ limits more tokens).eraseDups =
      (front ++ limits (changes ++ more) tokens).eraseDups := by
  by_cases hmore : Deferred.stretch ∈ more
  · by_cases hchanges : Deferred.stretch ∈ changes
    · simp only [limits, hmore, hchanges, List.mem_append, or_self, if_true]
      rw [eraseDups_append_cons_of_mem (by simp), List.append_nil]
    · simp [limits, hmore, hchanges]
  · simp [limits, hmore]

/-! ### Tokens that a change brings or takes away -/

theorem flex_notMem_outcome (h : .inline ∈ changes)
    (tokens : List String) : "flex" ∉ outcome changes tokens := by
  rw [mem_outcome_iff]
  rintro (⟨t, -, ht⟩ | ⟨-, hlimit⟩)
  · by_cases hflex : t = "flex"
    · simp [respell, h, hflex] at ht
    · simp [respell, hflex] at ht
  · exact ne_limit (by decide) (by decide) tokens hlimit

theorem inlineFlex_mem_outcome_iff (h : .inline ∈ changes) (tokens : List String) :
    "inline-flex" ∈ outcome changes tokens ↔ "flex" ∈ tokens ∨ "inline-flex" ∈ tokens := by
  have hrespell : ∀ t, respell changes t = "inline-flex" ↔ t = "flex" ∨ t = "inline-flex" := by
    intro t
    by_cases hflex : t = "flex" <;> simp [respell, h, hflex]
  have hlimit : "inline-flex" ≠ limit tokens := ne_limit (by decide) (by decide) tokens
  simp only [mem_outcome_iff, hrespell, hlimit, and_false, or_false]
  constructor
  · rintro ⟨t, ht, rfl | rfl⟩
    · exact .inl ht
    · exact .inr ht
  · rintro (ht | ht)
    · exact ⟨_, ht, .inl rfl⟩
    · exact ⟨_, ht, .inr rfl⟩

/-! ### One change after the other -/

/-- Changes on top of the outcome of others are an outcome again. -/
theorem outcome_outcome (changes more : List Deferred) (tokens : List String) :
    outcome more (outcome changes tokens) = outcome (changes ++ more) tokens := by
  have hmap : (tokens.map (respell changes) ++ limits changes tokens).map (respell more) =
      tokens.map (respell (changes ++ more)) ++ limits changes tokens := by
    rw [List.map_append, List.map_map, map_respell_limits]
    congr 1
    exact List.map_congr_left fun token _ => respell_respell changes more token
  calc outcome more (outcome changes tokens)
      = ((outcome changes tokens).map (respell more) ++ limits more tokens).eraseDups := by
        rw [outcome, limits_outcome]
    _ = (tokens.map (respell (changes ++ more)) ++ limits changes tokens ++
          limits more tokens).eraseDups := by
        rw [outcome, eraseDups_map_eraseDups_append, hmap]
    _ = outcome (changes ++ more) tokens := eraseDups_append_limits _ _ _ _

theorem nodup_outcome (changes : List Deferred) (tokens : List String) :
    (outcome changes tokens).Nodup := nodup_eraseDups _

theorem outcome_nil (h : tokens.Nodup) : outcome [] tokens = tokens := by
  have hmap : tokens.map (respell []) = tokens :=
    (List.map_congr_left fun token _ => by simp [respell]).trans (List.map_id tokens)
  rw [outcome, hmap, limits, if_neg List.not_mem_nil, List.append_nil, eraseDups_of_nodup h]

/-- One of the two changes, carried out. -/
theorem on_eq_outcome {change : Deferred} (h : change = .inline ∨ change = .stretch)
    (tokens : List String) : on tokens change = outcome [change] tokens := by
  rcases h with rfl | rfl
  · have hrespell : (fun t => if t = "flex" then "inline-flex" else t) = respell [.inline] := by
      funext t
      simp [respell]
    have hlimits : limits [.inline] tokens = [] := if_neg (by decide)
    rw [outcome, hlimits, List.append_nil, ← hrespell]
    rfl
  · have hrespell : respell [.stretch] = id := by
      funext t
      exact if_neg (by simp [inline, stretch])
    have hcolumn : (["flex-col", "flex-col-reverse"].any (· ∈ tokens)) = true ↔
        IsColumn tokens := by
      simp [IsColumn]
    rw [outcome, hrespell, List.map_id, limits, if_pos (by decide)]
    simp only [on, stretch, hcolumn, limit]

/-- Any number of changes, carried out one after the other. -/
theorem foldl_on (h : ∀ change ∈ changes, change = .inline ∨ change = .stretch)
    (hnodup : tokens.Nodup) : changes.foldl on tokens = outcome changes tokens := by
  induction changes generalizing tokens with
  | nil => exact (outcome_nil hnodup).symm
  | cons change changes ih =>
      rw [List.foldl_cons, on_eq_outcome (h change (by simp)),
        ih (fun d hd => h d (by simp [hd])) (nodup_outcome _ _), outcome_outcome,
        List.singleton_append]

end FlexFold.Deferred
