import FlexFold.Proofs.Glob.Search
import FlexFold.Proofs.Run.Prepare

/-!
What exclusions keep out of a run. An exclusion is only compared with the texts of paths, while the
same pattern among the inputs is searched for. It keeps out what it would lead to if its paths are
spelled as the pattern is, and that fails for a pattern that begins with `./`.
-/

namespace FlexFold

/-! ### One text for each path -/

namespace Path

variable {path other : Path}

/-- A path without components that lead nowhere and without repeated slashes. -/
def IsTidy (path : Path) : Prop :=
  ∃ names : List String, names ≠ [] ∧
    (∀ name ∈ names, '/' ∉ name.toList ∧ isIdle name.toList = false) ∧
    (path.text.toList = Glob.spelling names ∨ path.text.toList = '/' :: Glob.spelling names)

/-- The components of a tidy path are its names. -/
theorem IsTidy.exists_components (h : path.IsTidy) :
    ∃ names : List String, path.components = names.map String.toList ∧
      (path.isAbsolute = false ∧ path.text.toList = Glob.spelling names ∨
        path.isAbsolute = true ∧ path.text.toList = '/' :: Glob.spelling names) := by
  obtain ⟨names, hne, hall, htext⟩ := h
  have hslash : ∀ piece ∈ names.map String.toList, '/' ∉ piece := by
    intro piece hpiece
    obtain ⟨name, hname, rfl⟩ := List.mem_map.mp hpiece
    exact (hall name hname).1
  have hproper : ∀ piece ∈ names.map String.toList, isIdle piece = false := by
    intro piece hpiece
    obtain ⟨name, hname, rfl⟩ := List.mem_map.mp hpiece
    exact (hall name hname).2
  have hsplit : Text.split '/' (Glob.spelling names) = names.map String.toList :=
    Text.split_join (by simpa using hne) hslash
  have hfilter : (names.map String.toList).filter (fun piece => !isIdle piece) =
      names.map String.toList := List.filter_eq_self.mpr fun piece hpiece => by
    simp [hproper piece hpiece]
  refine ⟨names, ?_, ?_⟩
  · rcases htext with htext | htext
    · rw [components, pieces, htext, hsplit]
      cases hpieces : names.map String.toList with
      | nil => simp [hne] at hpieces
      | cons first rest =>
          rw [hpieces] at hproper hfilter
          have hfirst : first ≠ [] := by
            rintro rfl
            simp [isIdle] at hproper
          rw [List.filter_cons_of_pos (by simp [hproper first List.mem_cons_self])] at hfilter
          dsimp only
          rw [if_neg hfirst, List.singleton_append, hfilter]
    · rw [components, pieces, htext, ← List.nil_append ('/' :: _), Text.split_append, hsplit]
      exact hfilter
  · rcases htext with htext | htext
    · refine .inl ⟨Bool.eq_false_iff.mpr fun habsolute => ?_, htext⟩
      rw [isAbsolute, beq_iff_eq, htext] at habsolute
      obtain ⟨rest, hrest⟩ := List.head?_eq_some_iff.mp habsolute
      rw [hrest, ← List.nil_append ('/' :: rest), Text.split_append] at hsplit
      have hidle := hproper [] (hsplit ▸ List.mem_append_left _ (List.mem_singleton_self []))
      simp [isIdle] at hidle
    · exact .inr ⟨by rw [isAbsolute, htext]; rfl, htext⟩

/-- A tidy path has no other text than that of its components. -/
theorem IsTidy.eq_of_same (h : path.IsTidy) (hother : other.IsTidy) (hsame : path.same other) :
    path = other := by
  obtain ⟨names, hnames, htext⟩ := h.exists_components
  obtain ⟨names', hnames', htext'⟩ := hother.exists_components
  rw [same, Bool.and_eq_true, beq_iff_eq, beq_iff_eq, hnames, hnames'] at hsame
  obtain ⟨habsolute, hcomponents⟩ := hsame
  have hspelling : Glob.spelling names = Glob.spelling names' := by
    rw [Glob.spelling, hcomponents, Glob.spelling]
  refine congrArg Path.mk (String.toList_inj.mp ?_)
  rcases htext with ⟨hroot, htext⟩ | ⟨hroot, htext⟩ <;>
    rcases htext' with ⟨hroot', htext'⟩ | ⟨hroot', htext'⟩
  · rw [htext, htext', hspelling]
  · simp [hroot, hroot'] at habsolute
  · simp [hroot, hroot'] at habsolute
  · rw [htext, htext', hspelling]

end Path

namespace Glob

variable {store : Store} {text : String} {glob : Glob} {path : Path}

/-- A pattern that leads to tidy paths only. -/
def IsTidy (glob : Glob) : Prop :=
  glob.IsFaithful ∧ ∀ p ∈ glob.components, "." ∉ hiddenNames p

instance (glob : Glob) : Decidable glob.IsTidy := inferInstanceAs (Decidable (_ ∧ _))

theorem Covers.tidy {components : List Pattern} {names : List String} (h : Covers components names)
    (hdots : ∀ p ∈ components, "." ∉ hiddenNames p) :
    ∀ name ∈ names, '/' ∉ name.toList ∧ Path.isIdle name.toList = false := by
  have hfound {p : Pattern} {name : String} (hfinds : p.Finds name) (hp : "." ∉ hiddenNames p) :
      '/' ∉ name.toList ∧ Path.isIdle name.toList = false := by
    refine ⟨hfinds.no_slash, ?_⟩
    simp only [Path.isIdle, Bool.or_eq_false_iff, beq_eq_false_iff_ne]
    exact ⟨hfinds.ne_nil, fun e => hp (hfinds.hidden (String.toList_inj.mp e))⟩
  induction h with
  | last hfinds => simpa using hfound hfinds (hdots _ List.mem_cons_self)
  | next hfinds _ ih =>
      obtain ⟨hp, hrest⟩ := List.forall_mem_cons.mp hdots
      exact List.forall_mem_cons.mpr ⟨hfound hfinds hp, ih hrest⟩
  | skip _ _ ih => exact ih (List.forall_mem_cons.mp hdots).2
  | deeper _ hfinds _ ih =>
      exact List.forall_mem_cons.mpr ⟨hfound hfinds (hdots _ List.mem_cons_self), ih hdots⟩

/-- A pattern matches the paths that it leads to. -/
theorem matchesText_of_mem_paths (hnames : store.IsWellNamed) (hparse : Glob.parse text = .ok glob)
    (hfaithful : glob.IsFaithful) (hpath : .ok path ∈ glob.paths store)
    (hdirectories : glob.directoriesOnly = false) :
    ∃ p, Pattern.parse text = .ok p ∧ p.matchesText path.text := by
  obtain ⟨hcomponents, hwhole⟩ := parse_spec hparse
  obtain ⟨names, hcovers, htext⟩ :=
    (follows_of_mem_paths hnames hcomponents hfaithful hpath).spelled
  refine ⟨_, hwhole hdirectories, ?_⟩
  have hmatch := hcovers.matchTokens_joined hcomponents
  rw [Pattern.matchesText, htext]
  cases glob.isAbsolute with
  | false => exact hmatch
  | true => simpa [matchTokens, Token.accepts] using hmatch

theorem isTidy_of_mem_paths (hnames : store.IsWellNamed) (hparse : Glob.parse text = .ok glob)
    (htidy : glob.IsTidy) (hpath : .ok path ∈ glob.paths store) : path.IsTidy := by
  obtain ⟨hcomponents, -⟩ := parse_spec hparse
  obtain ⟨names, hcovers, htext⟩ :=
    (follows_of_mem_paths hnames hcomponents htidy.1 hpath).spelled
  refine ⟨names, hcovers.ne_nil.2, hcovers.tidy htidy.2, ?_⟩
  cases habsolute : glob.isAbsolute with
  | false => exact .inl (by simpa [habsolute] using htext)
  | true => exact .inr (by simpa [habsolute] using htext)

end Glob

namespace Selection

variable {store : Store} {refusals : Refusals} {settings : Settings} {selected : List Selected}
  {file : Selected} {text : String} {glob : Glob} {path : Path}

/-- No file is selected that a faithful exclusion leads to. -/
theorem path_ne_of_excluded (hnames : store.IsWellNamed)
    (hfiles : files store settings refusals = .ok selected) (hfile : file ∈ selected)
    (hexclude : text ∈ settings.exclude) (hparse : Glob.parse text = .ok glob)
    (hfaithful : glob.IsFaithful) (hpath : .ok path ∈ glob.paths store) : file.path ≠ path := by
  rintro rfl
  obtain ⟨exclude, hall, haccepted⟩ := accepted_of_mem_files hfiles hfile
  cases hdirectories : glob.directoriesOnly with
  | false =>
      obtain ⟨p, hp, hmatched⟩ :=
        Glob.matchesText_of_mem_paths hnames hparse hfaithful hpath hdirectories
      have hmem : p ∈ exclude := (Attempt.mem_iff_of_mapM_eq_ok hall p).mpr ⟨text, hexclude, hp⟩
      have hexcluded : isExcluded exclude file.path = true :=
        List.any_eq_true.mpr ⟨p, hmem, hmatched⟩
      exact Bool.false_ne_true (haccepted.notExcluded.symm.trans hexcluded)
  | true =>
      obtain ⟨location, bytes, hfind⟩ := haccepted.exists_file
      have hfollows :=
        Glob.follows_of_mem_paths hnames (Glob.parse_spec hparse).1 hfaithful hpath
      exact hfollows.directory hdirectories location bytes hfind

/-- No file is selected under another text of a path that a tidy exclusion leads to, if all inputs
are tidy. -/
theorem not_same_of_excluded (hnames : store.IsWellNamed)
    (hfiles : files store settings refusals = .ok selected) (hfile : file ∈ selected)
    (hexclude : text ∈ settings.exclude) (hparse : Glob.parse text = .ok glob)
    (htidy : glob.IsTidy) (hpath : .ok path ∈ glob.paths store)
    (hinputs : ∀ input ∈ settings.content, ∀ glob, Glob.parse input = .ok glob → glob.IsTidy) :
    file.path.same path = false := by
  refine Bool.eq_false_iff.mpr fun hsame => ?_
  obtain ⟨input, hinput, inputGlob, hinputParse, hled⟩ := ledTo_of_mem_files hfiles hfile
  have hfileTidy := Glob.isTidy_of_mem_paths hnames hinputParse
    (hinputs input hinput inputGlob hinputParse) hled
  have hpathTidy := Glob.isTidy_of_mem_paths hnames hparse htidy hpath
  exact path_ne_of_excluded hnames hfiles hfile hexclude hparse htidy.1 hpath
    (hfileTidy.eq_of_same hpathTidy hsame)

end Selection

namespace Run

open Attempt (mem_of_toOption)

variable {host : Host} {request : Request} {store : Store} {report : Report}
  {merged : Settings} {text : String} {glob : Glob} {path : Path}

/-- No file is rewritten to which a path leads that a faithful exclusion would select, not even
under another text of that path if all patterns are tidy. -/
theorem source_ne_of_excluded (hnames : store.IsWellNamed)
    (hprepare : prepare host request store = .ok report)
    (hsettings : settings store request = .ok merged) (hexclude : text ∈ merged.exclude)
    (hparse : Glob.parse text = .ok glob) (hfaithful : glob.IsFaithful)
    (hpath : .ok path ∈ glob.paths store) :
    (∀ file ∈ report.files, file.source ≠ path) ∧
    (glob.IsTidy →
      (∀ input ∈ merged.content, ∀ glob, Glob.parse input = .ok glob → glob.IsTidy) →
      ∀ file ∈ report.files, file.source.same path = false) := by
  obtain ⟨settings, selected, targets, h⟩ := prepared_of_prepare hprepare
  obtain rfl : settings = merged := Except.ok.inj (h.settings_eq.symm.trans hsettings)
  refine ⟨fun file hfile => ?_, fun htidy hinputs file hfile => ?_⟩
  · obtain ⟨found, hfound, hsource⟩ := h.exists_selected hfile
    rw [← hsource]
    exact Selection.path_ne_of_excluded hnames h.found hfound hexclude hparse hfaithful hpath
  · obtain ⟨found, hfound, hsource⟩ := h.exists_selected hfile
    rw [← hsource]
    exact Selection.not_same_of_excluded hnames h.found hfound hexclude hparse htidy hpath hinputs

/-! ### A directory that is left out -/

/-- A tree, and another one in a directory that is to be left out. -/
def vendored : Store :=
  ((((Store.ofWorkingDirectory ["home"]).put ["home", "a.json"] (.file flexTree.toUTF8)).put
    ["home", "trees"] .directory).put ["home", "trees", "vendor"] .directory).put
    ["home", "trees", "vendor", "v.json"] (.file flexTree.toUTF8)

/-- A request for all trees but those of one directory. -/
def withoutVendor : Request :=
  { input := ["a.json", "trees/**/*.json"], exclude := ["trees/vendor/*.json"], inPlace := true }

theorem source_ne_of_excluded_vendored :
    ∃ report, prepare epoch withoutVendor vendored = .ok report ∧
      report.files.map RewrittenFile.source = [⟨"a.json"⟩] ∧
      (∀ file ∈ report.files, file.source ≠ ⟨"trees/vendor/v.json"⟩) ∧
      ∀ file ∈ report.files, file.source.same ⟨"trees/vendor/v.json"⟩ = false := by
  have hsources : ((prepare epoch withoutVendor vendored).toOption.map fun report =>
      report.files.map RewrittenFile.source) = some [⟨"a.json"⟩] := by decide +kernel
  have hglob : ((Glob.parse "trees/vendor/*.json").toOption.map fun glob =>
      decide (glob.IsTidy ∧
        some ⟨"trees/vendor/v.json"⟩ ∈ (glob.paths vendored).map Except.toOption)) =
        some true := by
    decide +kernel
  have hinputs : ∀ input ∈ withoutVendor.input,
      ((Glob.parse input).toOption.map fun glob => decide glob.IsTidy) = some true := by
    decide +kernel
  cases hprepare : prepare epoch withoutVendor vendored with
  | error failure => simp [hprepare, Except.toOption] at hsources
  | ok report =>
      cases hparse : Glob.parse "trees/vendor/*.json" with
      | error fault => simp [hparse, Except.toOption] at hglob
      | ok glob =>
          rw [hprepare] at hsources
          rw [hparse] at hglob
          obtain ⟨htidy, hpath⟩ := of_decide_eq_true (Option.some.inj hglob)
          obtain ⟨hne, hsame⟩ := source_ne_of_excluded (by decide +kernel) hprepare rfl
            (by decide +kernel) hparse htidy.1 (mem_of_toOption hpath)
          refine ⟨report, rfl, Option.some.inj hsources, hne, hsame htidy ?_⟩
          intro input hinput inputGlob hinputParse
          have hinputTidy := hinputs input hinput
          rw [hinputParse] at hinputTidy
          exact of_decide_eq_true (Option.some.inj hinputTidy)

/-- The same request with patterns that begin at the working directory. -/
def withoutVendorDotted : Request :=
  { input := ["a.json", "./trees/**/*.json"], exclude := ["./trees/vendor/*.json"],
    inPlace := true }

/-- The directory is not left out, though the exclusion would select what stands in it. -/
theorem not_source_ne_of_excluded :
    ¬ ∀ (clock : Clock) (request : Request) (store : Store) (report : Report)
      (merged : Settings) (text : String) (glob : Glob) (path : Path),
      store.IsWellNamed → prepare clock request store = .ok report →
      settings store request = .ok merged → text ∈ merged.exclude →
      Glob.parse text = .ok glob → .ok path ∈ glob.paths store →
      ∀ file ∈ report.files, file.source ≠ path := by
  intro h
  have hsources : ((prepare epoch withoutVendorDotted vendored).toOption.map fun report =>
      report.files.map RewrittenFile.source) = some [⟨"a.json"⟩, ⟨"trees/vendor/v.json"⟩] := by
    decide +kernel
  have hglob : ((Glob.parse "./trees/vendor/*.json").toOption.map fun glob =>
      decide (some ⟨"trees/vendor/v.json"⟩ ∈ (glob.paths vendored).map Except.toOption)) =
        some true := by
    decide +kernel
  cases hprepare : prepare epoch withoutVendorDotted vendored with
  | error failure => simp [hprepare, Except.toOption] at hsources
  | ok report =>
      cases hparse : Glob.parse "./trees/vendor/*.json" with
      | error fault => simp [hparse, Except.toOption] at hglob
      | ok glob =>
          rw [hprepare] at hsources
          rw [hparse] at hglob
          have hpath := mem_of_toOption (of_decide_eq_true (Option.some.inj hglob))
          have hmem : (⟨"trees/vendor/v.json"⟩ : Path) ∈
              report.files.map RewrittenFile.source := by
            rw [show report.files.map RewrittenFile.source = _ from Option.some.inj hsources]
            exact List.mem_cons_of_mem _ List.mem_cons_self
          obtain ⟨file, hfile, hsource⟩ := List.mem_map.mp hmem
          exact h _ _ _ _ _ "./trees/vendor/*.json" glob ⟨"trees/vendor/v.json"⟩
            (by decide +kernel) hprepare rfl (by decide +kernel) hparse hpath file hfile hsource

end Run

end FlexFold
