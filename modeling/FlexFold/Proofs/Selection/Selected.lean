import FlexFold.Proofs.Attempt
import FlexFold.Proofs.Glob.Refusals
import FlexFold.Proofs.Selection.Distinct
import FlexFold.Proofs.Store.Place

/-!
What a selection consists of, and when there is one. It is the list of all files that the input
patterns lead to and that are accepted, of which the first of each path is kept; every file that is
selected matches no exclusion and may be read. A selection fails only if a pattern cannot be read
or searched for; so what a system refuses has no part in one that succeeds.
-/

namespace FlexFold.Selection

variable {store : Store} {refusals : Refusals} {settings : Settings} {exclude : List Glob.Pattern}
  {selected after : List Selected} {file : Selected} {path : Path} {texts : List String}

/-- What a path has to pass before it is selected. -/
structure Accepted (store : Store) (settings : Settings) (exclude : List Glob.Pattern)
    (file : Selected) : Prop where
  notExcluded : isExcluded exclude file.path = false
  notDirectory : store.isDirectory file.path = false
  readable : readableSize? store settings file.path = some file.size

/-- What is selected has a size, and one that is allowed. -/
theorem Accepted.size (h : Accepted store settings exclude file) :
    store.size? file.path = some file.size ∧ file.size ≤ settings.maxFileSize := by
  have hsize := h.readable
  unfold readableSize? at hsize
  split at hsize
  · cases hsize
  · obtain ⟨hsize, hle⟩ := Option.filter_eq_some_iff.mp hsize
    exact ⟨hsize, of_decide_eq_true hle⟩

/-- What is selected is a file. -/
theorem Accepted.exists_file (h : Accepted store settings exclude file) :
    ∃ location bytes, store.find? true file.path = some (location, .file bytes) := by
  obtain ⟨hsize, -⟩ := h.size
  unfold Store.size? at hsize
  split at hsize
  · rename_i location bytes hfind
    exact ⟨location, bytes, hfind⟩
  · rename_i found hnot hfind
    obtain ⟨location, entry⟩ := found
    cases entry with
    | file bytes => exact absurd rfl (hnot location bytes)
    | directory =>
        have hdirectory := h.notDirectory
        simp [Store.isDirectory, hfind] at hdirectory
    | link target => exact absurd rfl (Store.ne_link_of_locate (Store.find?_eq_some_iff.mp hfind))
  · simp at hsize

/-! ### What comes up -/

/-- A pattern that leads to a path. -/
def LedTo (store : Store) (path : Path) (text : String) : Prop :=
  ∃ glob, Glob.parse text = .ok glob ∧ .ok path ∈ glob.paths store

/-- A file of a path, if it is accepted. -/
def accepted? (store : Store) (settings : Settings) (exclude : List Glob.Pattern) (path : Path) :
    Option Selected :=
  if isExcluded exclude path || store.isDirectory path then none
  else (readableSize? store settings path).map fun size => { path, size }

/-- All paths that some patterns lead to, pattern by pattern. -/
def found (store : Store) (texts : List String) : List Path :=
  texts.flatMap fun text =>
    match Glob.parse text with
    | .ok glob => (glob.paths store).filterMap Except.toOption
    | .error _ => []

/-- All files that come up in a selection, pattern by pattern and with repetitions. -/
def offers (store : Store) (settings : Settings) (exclude : List Glob.Pattern) : List Selected :=
  (found store settings.content).filterMap (accepted? store settings exclude)

theorem accepted?_eq_some_iff :
    accepted? store settings exclude path = some file ↔
      Accepted store settings exclude file ∧ file.path = path := by
  unfold accepted?
  constructor
  · intro h
    split at h
    · cases h
    · next hskip =>
        simp only [Bool.or_eq_true, not_or, Bool.not_eq_true] at hskip
        obtain ⟨size, hsize, rfl⟩ := Option.map_eq_some_iff.mp h
        exact ⟨⟨hskip.1, hskip.2, hsize⟩, rfl⟩
  · rintro ⟨haccepted, rfl⟩
    rw [if_neg (by simp [haccepted.notExcluded, haccepted.notDirectory]), haccepted.readable]
    rfl

theorem mem_found_iff : path ∈ found store texts ↔ ∃ text ∈ texts, LedTo store path text := by
  simp only [found, List.mem_flatMap, LedTo]
  refine exists_congr fun text => and_congr_right fun _ => ?_
  cases Glob.parse text with
  | error fault => simp
  | ok glob =>
      simp only [List.mem_filterMap, Except.ok.injEq, exists_eq_left']
      constructor
      · rintro ⟨result, hresult, hsome⟩
        rwa [Attempt.ok_of_toOption hsome] at hresult
      · exact fun hpath => ⟨_, hpath, rfl⟩

theorem mem_offers_iff :
    file ∈ offers store settings exclude ↔
      (∃ text ∈ settings.content, LedTo store file.path text) ∧
        Accepted store settings exclude file := by
  simp only [offers, List.mem_filterMap, accepted?_eq_some_iff, mem_found_iff]
  constructor
  · rintro ⟨_, hled, haccepted, rfl⟩
    exact ⟨hled, haccepted⟩
  · rintro ⟨hled, haccepted⟩
    exact ⟨_, hled, haccepted, rfl⟩

/-! ### The selection as a list -/

theorem consider_eq (selected : List Selected) (path : Path) :
    consider store settings exclude selected path =
      (accepted? store settings exclude path).toList.foldl keepFirst selected := by
  unfold consider accepted?
  split
  · rfl
  · cases readableSize? store settings path with
    | none => rfl
    | some size => rfl

theorem considerAll_succeeds_iff {found : List (Except GlobError Path)} :
    (∃ after, considerAll store settings exclude selected found = .ok after) ↔
      ∀ e, .error e ∉ found := by
  induction found generalizing selected with
  | nil => simp [considerAll]
  | cons item found ih =>
      cases item with
      | error e =>
          simp only [considerAll, reduceCtorEq, exists_false, false_iff]
          exact fun h => h e List.mem_cons_self
      | ok path => simp [considerAll, ih]

theorem considerAll_eq {items : List (Except GlobError Path)}
    (h : considerAll store settings exclude selected items = .ok after) :
    after = ((items.filterMap Except.toOption).filterMap
      (accepted? store settings exclude)).foldl keepFirst selected := by
  induction items generalizing selected with
  | nil => exact (Except.ok.inj h).symm
  | cons item items ih =>
      cases item with
      | error e => cases h
      | ok path =>
          rw [considerAll, consider_eq] at h
          have hcons : (Except.ok path :: items).filterMap Except.toOption =
              path :: items.filterMap Except.toOption := rfl
          rw [ih h, hcons, List.filterMap_cons]
          cases accepted? store settings exclude path <;> rfl

/-- Patterns that meet no refusal select what they select where nothing is refused. -/
theorem considerPatterns_of_allowed
    (h : considerPatterns store refusals settings exclude selected texts = .ok after) :
    considerPatterns store (fun _ => none) settings exclude selected texts = .ok after := by
  induction texts generalizing selected with
  | nil => exact h
  | cons text texts ih =>
      rw [considerPatterns] at h ⊢
      split at h
      · cases h
      · next glob hparse =>
          split at h
          · cases h
          · next middle hall =>
              have hallowed := considerAll_succeeds_iff.mp ⟨middle, hall⟩
              rw [Glob.paths_eq_of_allowed hallowed] at hall
              simp only [hall]
              exact ih h

theorem considerPatterns_eq
    (h : considerPatterns store (fun _ => none) settings exclude selected texts = .ok after) :
    after = ((found store texts).filterMap (accepted? store settings exclude)).foldl keepFirst
      selected := by
  induction texts generalizing selected with
  | nil => exact (Except.ok.inj h).symm
  | cons text texts ih =>
      rw [considerPatterns] at h
      split at h
      · cases h
      · next glob hparse =>
          split at h
          · cases h
          · next middle hall =>
              have hcons : found store (text :: texts) =
                  (glob.paths store).filterMap Except.toOption ++ found store texts := by
                rw [found, List.flatMap_cons, hparse, found]
              rw [ih h, considerAll_eq hall, hcons, List.filterMap_append, List.foldl_append]

theorem files_of_allowed (h : files store settings refusals = .ok selected) :
    files store settings = .ok selected := by
  unfold files at h ⊢
  split at h
  · cases h
  · exact considerPatterns_of_allowed h

/-- A selection that succeeds consists of the first of each path that comes up. -/
theorem areFirst_files (h : files store settings refusals = .ok selected) :
    ∃ exclude, settings.exclude.mapM Glob.Pattern.parse = .ok exclude ∧
      AreFirst (offers store settings exclude) selected := by
  have h := files_of_allowed h
  unfold files at h
  split at h
  · cases h
  · next exclude hexclude =>
      refine ⟨exclude, hexclude, ?_⟩
      rw [considerPatterns_eq h]
      exact areFirst_nil.foldl_keepFirst _

theorem accepted_of_mem_files (h : files store settings refusals = .ok selected)
    (hfile : file ∈ selected) :
    ∃ exclude, settings.exclude.mapM Glob.Pattern.parse = .ok exclude ∧
      Accepted store settings exclude file := by
  obtain ⟨exclude, hexclude, hfirst⟩ := areFirst_files h
  exact ⟨exclude, hexclude, (mem_offers_iff.mp (hfirst.mem_offered hfile)).2⟩

/-- Some input pattern leads to every file that is selected. -/
theorem ledTo_of_mem_files (h : files store settings refusals = .ok selected)
    (hfile : file ∈ selected) :
    ∃ text ∈ settings.content, LedTo store file.path text := by
  obtain ⟨exclude, -, hfirst⟩ := areFirst_files h
  exact (mem_offers_iff.mp (hfirst.mem_offered hfile)).1

/-! ### When there is a selection -/

/-- A pattern that can be read, and a search for it that meets no error. -/
def Searchable (store : Store) (refusals : Refusals) (text : String) : Prop :=
  ∃ glob, Glob.parse text = .ok glob ∧ ∀ e, .error e ∉ glob.paths store refusals

theorem considerPatterns_succeeds_iff :
    (∃ after, considerPatterns store refusals settings exclude selected texts = .ok after) ↔
      ∀ text ∈ texts, Searchable store refusals text := by
  induction texts generalizing selected with
  | nil => simp [considerPatterns]
  | cons text texts ih =>
      rw [List.forall_mem_cons, considerPatterns]
      cases hparse : Glob.parse text with
      | error fault => simp [Searchable, hparse]
      | ok glob =>
          have hglob : Searchable store refusals text ↔
              ∃ after, considerAll store settings exclude selected (glob.paths store refusals) =
                .ok after := by
            simp [Searchable, hparse, considerAll_succeeds_iff]
          rw [hglob]
          dsimp only
          cases considerAll store settings exclude selected (glob.paths store refusals) with
          | error failure => simp
          | ok after => simp [ih]

theorem files_succeeds_iff :
    (∃ selected, files store settings refusals = .ok selected) ↔
      (∀ text ∈ settings.exclude, ∃ p, Glob.Pattern.parse text = .ok p) ∧
        ∀ text ∈ settings.content, Searchable store refusals text := by
  rw [← Attempt.mapM_succeeds_iff]
  unfold files
  cases settings.exclude.mapM Glob.Pattern.parse with
  | error fault => simp
  | ok exclude => simp [considerPatterns_succeeds_iff]

end FlexFold.Selection
