import FlexFold.Proofs.Selection.Selected

/-!
Selections are exact: they miss no file that an input pattern leads to and that is accepted, and no
pattern takes a file away from another one. The order of the patterns matters for nothing but the
order of the files.
-/

namespace FlexFold.Selection

variable {store : Store} {refusals : Refusals} {settings : Settings} {exclude : List Glob.Pattern}
  {selected : List Selected} {file : Selected}

/-! ### Patterns in any order -/

/-- The same exclusions in any order and number exclude the same paths. -/
theorem isExcluded_congr {exclusions exclusions' : List String}
    {exclude exclude' : List Glob.Pattern}
    (h : exclusions.mapM Glob.Pattern.parse = .ok exclude)
    (h' : exclusions'.mapM Glob.Pattern.parse = .ok exclude')
    (hsame : ∀ text, text ∈ exclusions' ↔ text ∈ exclusions) (path : Path) :
    isExcluded exclude' path = isExcluded exclude path := by
  rw [Bool.eq_iff_iff, isExcluded, isExcluded, List.any_eq_true, List.any_eq_true]
  simp only [Attempt.mem_iff_of_mapM_eq_ok h, Attempt.mem_iff_of_mapM_eq_ok h', hsame]

/-- The same patterns in any order and number select the same paths. -/
theorem selects_congr {content exclusions : List String}
    (h : files store settings refusals = .ok selected)
    (hcontent : ∀ text, text ∈ content ↔ text ∈ settings.content)
    (hexclude : ∀ text, text ∈ exclusions ↔ text ∈ settings.exclude) :
    ∃ others, files store { settings with content, exclude := exclusions } refusals = .ok others ∧
      ∀ path, Selects others path ↔ Selects selected path := by
  have hsucceeds : ∃ others,
      files store { settings with content, exclude := exclusions } refusals = .ok others := by
    rw [files_succeeds_iff]
    obtain ⟨hparse, hsearch⟩ := files_succeeds_iff.mp ⟨selected, h⟩
    exact ⟨fun text htext => hparse text ((hexclude text).mp htext),
      fun text htext => hsearch text ((hcontent text).mp htext)⟩
  obtain ⟨others, hothers⟩ := hsucceeds
  obtain ⟨exclude, hparse, hfirst⟩ := areFirst_files h
  obtain ⟨exclude', hparse', hfirst'⟩ := areFirst_files hothers
  refine ⟨others, hothers, fun path => ?_⟩
  rw [hfirst'.selects_iff, hfirst.selects_iff]
  have haccepted : ∀ file, Accepted store { settings with content, exclude := exclusions } exclude'
      file ↔ Accepted store settings exclude file := by
    intro file
    have hexcluded := isExcluded_congr hparse hparse' hexclude file.path
    exact ⟨fun ⟨hnot, hfile, hread⟩ => ⟨hexcluded ▸ hnot, hfile, hread⟩,
      fun ⟨hnot, hfile, hread⟩ => ⟨hexcluded ▸ hnot, hfile, hread⟩⟩
  simp only [Selects, mem_offers_iff, hcontent, haccepted]

/-! ### Exactness -/

/-- What a selection consists of: every path that some input pattern leads to in a spelling that
is accepted, once, in the order in which these spellings come up. -/
structure IsExact (store : Store) (settings : Settings) (exclude : List Glob.Pattern)
    (selected : List Selected) : Prop where
  distinct : selected.Pairwise fun a b => a.path.same b.path = false
  selects_iff : ∀ path, Selects selected path ↔
    ∃ file, file.path.same path ∧ (∃ text ∈ settings.content, LedTo store file.path text) ∧
      Accepted store settings exclude file
  size : ∀ file ∈ selected,
    store.size? file.path = some file.size ∧ file.size ≤ settings.maxFileSize
  first : ∀ file ∈ selected, ((offers store settings exclude).find? fun other =>
    other.path.same file.path) = some file
  ordered : selected.Pairwise fun a b =>
    position (offers store settings exclude) a.path <
      position (offers store settings exclude) b.path

theorem AreFirst.isExact (h : AreFirst (offers store settings exclude) selected) :
    IsExact store settings exclude selected where
  distinct := h.distinct
  selects_iff path := by
    rw [h.selects_iff]
    simp only [Selects, mem_offers_iff]
    exact exists_congr fun file => and_comm
  size file hfile := by
    exact (mem_offers_iff.mp (h.mem_offered hfile)).2.size
  first := h.first
  ordered := h.ordered

/-- A selection is exact, and neither the order of the patterns nor repetitions among them change
which paths are selected. -/
theorem isExact_files (h : files store settings refusals = .ok selected) :
    (∃ exclude, settings.exclude.mapM Glob.Pattern.parse = .ok exclude ∧
      IsExact store settings exclude selected) ∧
      ∀ content exclusions : List String,
        (∀ text, text ∈ content ↔ text ∈ settings.content) →
        (∀ text, text ∈ exclusions ↔ text ∈ settings.exclude) →
        ∃ others,
          files store { settings with content, exclude := exclusions } refusals = .ok others ∧
          ∀ path, Selects others path ↔ Selects selected path := by
  obtain ⟨exclude, hparse, hfirst⟩ := areFirst_files h
  exact ⟨⟨exclude, hparse, hfirst.isExact⟩, fun _ _ => selects_congr h⟩

/-! ### Patterns that overlap -/

/-- Three directories with a tree in each. -/
def shelves : Store :=
  ((((((Store.ofWorkingDirectory ["home"]).put ["home", "new"] .directory).put
    ["home", "new", "a.json"] (.file "\x7b\x7d".toUTF8)).put ["home", "old"] .directory).put
    ["home", "old", "b.json"] (.file "\x7b\x7d".toUTF8)).put ["home", "spare"] .directory).put
    ["home", "spare", "c.json"] (.file "\x7b\x7d".toUTF8)

/-- Two patterns that lead to one tree, and one that leads to a tree that is kept out. -/
def overlapping : Settings where
  workingDirectory := ["home"]
  content := ["old/b.json", "new/*.json", "spare/*.json", "old/*.json"]
  exclude := ["spare/*"]

theorem isExact_files_shelves :
    ∃ exclude selected, files shelves overlapping = .ok selected ∧
      selected = [⟨⟨"old/b.json"⟩, 2⟩, ⟨⟨"new/a.json"⟩, 2⟩] ∧
      IsExact shelves overlapping exclude selected ∧
      ∃ others,
        files shelves
          { overlapping with content := ["spare/*.json", "old/*.json", "new/*.json", "old/b.json"] } =
          .ok others ∧
        ∀ path, Selects others path ↔ Selects selected path := by
  have hfiles : files shelves overlapping = .ok [⟨⟨"old/b.json"⟩, 2⟩, ⟨⟨"new/a.json"⟩, 2⟩] :=
    Attempt.ok_of_toOption (by decide +kernel)
  have hcontent : ∀ text, text ∈ ["spare/*.json", "old/*.json", "new/*.json", "old/b.json"] ↔
      text ∈ overlapping.content := by
    intro text
    simp only [overlapping, List.mem_cons, List.not_mem_nil, or_false]
    grind only
  obtain ⟨⟨exclude, -, hexact⟩, hcongr⟩ := isExact_files hfiles
  obtain ⟨others, hothers, hsame⟩ := hcongr _ _ hcontent fun _ => Iff.rfl
  exact ⟨exclude, _, hfiles, rfl, hexact, others, hothers, hsame⟩

end FlexFold.Selection
