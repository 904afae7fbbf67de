import FlexFold.Proofs.Selection.Selected

/-!
Links on the way to a selected file. Only the last name of a path is looked at before the file is
selected, so a link that leads to a directory goes unnoticed; where there is none, every file is
reached as the settings allow it.
-/

namespace FlexFold

namespace Store

variable {store : Store} {path : Path} {location : Location}

/-- Whether a walk that may follow no link meets one. -/
def meetsLink (store : Store) (path : Path) (steps : List Stride) : Bool :=
  match store.walk true 0 (store.start path) steps with
  | .error .tooManyLinks => true
  | _ => false

/-- Whether some component of a path is a link, be it the last one or a directory on the way. -/
def passesLink (store : Store) (path : Path) : Bool := store.meetsLink path (strides path)

/-- Whether some directory on the way to the last name of a path is a link. -/
def directoryPassesLink (store : Store) (path : Path) : Bool :=
  store.meetsLink path ((strides path).dropLast ++ [.stay])

/-- A path passes a link if a directory on the way does or if its last name is one. -/
theorem Stands.passesLink_iff (h : Stands store path location) :
    store.passesLink path ↔
      store.directoryPassesLink path ∨ ∃ target, store.entry? location = some (.link target) := by
  cases h with
  | @intro before name left there hcheck hstrides hname hleads =>
      unfold passesLink directoryPassesLink meetsLink
      rw [hstrides, List.dropLast_concat, hleads.walk_append_zero (by simp),
        hleads.walk_append_zero (by simp)]
      by_cases hleft : left = maxLinks
      · rw [if_pos hleft, if_pos hleft, walk_stay, walk_nil, walk_down hname]
        cases store.entry? (there ++ [name]) with
        | none => simp
        | some entry => cases entry <;> simp [walk_nil]
      · simp [if_neg hleft]

theorem Stands.isLink_iff (h : Stands store path location) :
    store.isLink path ↔ ∃ target, store.entry? location = some (.link target) := by
  unfold isLink find?
  rw [h.locate (.inl rfl), spotAt]
  cases store.entry? location with
  | none => simp
  | some entry => cases entry <;> simp

end Store

namespace Selection

open Attempt (ok_of_toOption)

variable {store : Store} {refusals : Refusals} {settings : Settings} {exclude : List Glob.Pattern}
  {selected : List Selected} {file : Selected}

/-- A path is reached as the settings allow it: through no link, or through links to what stands
in the working directory. -/
def Contained (store : Store) (settings : Settings) (path : Path) : Prop :=
  (settings.allowSymlinks = false → ¬ store.passesLink path) ∧
  (settings.allowSymlinks = true → store.passesLink path →
    ∃ location, store.canonical? path = some location ∧ settings.workingDirectory <+: location)

theorem mayFollow_iff {path : Path} {location : Location} {entry : Entry}
    (h : store.find? true path = some (location, entry)) :
    mayFollow store settings path ↔
      settings.allowSymlinks = true ∧ settings.workingDirectory <+: location := by
  simp [mayFollow, Store.canonical?, h]

theorem Accepted.mayFollow_of_isLink (h : Accepted store settings exclude file)
    (hlink : store.isLink file.path) : mayFollow store settings file.path := by
  have hsize := h.readable
  unfold readableSize? at hsize
  split at hsize
  · simp at hsize
  · rename_i hallowed
    simpa [hlink] using hallowed

/-- A selected file is reached as the settings allow it if and only if no link leads to a
directory on the way, or links are allowed and the file stands in the working directory. Of a link
that bears the last name of the path both are checked. -/
theorem contained_iff (h : files store settings refusals = .ok selected)
    (hfile : file ∈ selected) :
    ∃ location bytes, store.find? true file.path = some (location, .file bytes) ∧
      (store.isLink file.path →
        settings.allowSymlinks = true ∧ settings.workingDirectory <+: location) ∧
      (Contained store settings file.path ↔
        ¬ store.directoryPassesLink file.path ∨
          settings.allowSymlinks = true ∧ settings.workingDirectory <+: location) := by
  obtain ⟨exclude, -, haccepted⟩ := accepted_of_mem_files h hfile
  obtain ⟨location, bytes, hfind⟩ := haccepted.exists_file
  have hlink : store.isLink file.path →
      settings.allowSymlinks = true ∧ settings.workingDirectory <+: location :=
    fun hlink => (mayFollow_iff hfind).mp (haccepted.mayFollow_of_isLink hlink)
  refine ⟨location, bytes, hfind, hlink, ?_⟩
  obtain ⟨place, hplace⟩ := Store.exists_stands (Store.find?_eq_some_iff.mp hfind) (by simp)
  have hpasses : store.passesLink file.path ↔
      store.directoryPassesLink file.path ∨ store.isLink file.path := by
    rw [hplace.passesLink_iff, hplace.isLink_iff]
  have hcanonical : store.canonical? file.path = some location := by
    simp [Store.canonical?, hfind]
  constructor
  · rintro ⟨hforbidden, hallowed⟩
    by_cases hdirectory : store.directoryPassesLink file.path
    · right
      have hpass := hpasses.mpr (.inl hdirectory)
      cases hallow : settings.allowSymlinks with
      | false => exact absurd hpass (hforbidden hallow)
      | true =>
          obtain ⟨inside, hinside, hprefix⟩ := hallowed hallow hpass
          obtain rfl := Option.some.inj (hcanonical.symm.trans hinside)
          exact ⟨rfl, hprefix⟩
    · exact .inl hdirectory
  · rintro (hdirectory | ⟨hallow, hprefix⟩)
    · have hown : store.passesLink file.path →
          settings.allowSymlinks = true ∧ settings.workingDirectory <+: location :=
        fun hpass => hlink ((hpasses.mp hpass).resolve_left hdirectory)
      refine ⟨fun hallow hpass => ?_, fun _ hpass => ⟨location, hcanonical, (hown hpass).2⟩⟩
      exact Bool.false_ne_true (hallow.symm.trans (hown hpass).1)
    · exact ⟨fun hnot => by simp [hallow] at hnot, fun _ _ => ⟨location, hcanonical, hprefix⟩⟩

/-! ### A link to a directory -/

/-- A directory with a tree in it and a link to that directory. -/
def linkedDirectory : Store :=
  (((Store.ofWorkingDirectory ["home"]).put ["home", "trees"] .directory).put
    ["home", "trees", "a.json"] (.file "\x7b\x7d".toUTF8)).put ["home", "link"] (.link ⟨"trees"⟩)

theorem contained_iff_linkedDirectory :
    files linkedDirectory { workingDirectory := ["home"], content := ["trees/*.json"] } =
        .ok [⟨⟨"trees/a.json"⟩, 2⟩] ∧
      Contained linkedDirectory { workingDirectory := ["home"], content := ["trees/*.json"] }
        ⟨"trees/a.json"⟩ := by
  have hfiles : files linkedDirectory
      { workingDirectory := ["home"], content := ["trees/*.json"] } =
        .ok [⟨⟨"trees/a.json"⟩, 2⟩] := ok_of_toOption (by decide +kernel)
  obtain ⟨location, bytes, -, -, hiff⟩ := contained_iff hfiles List.mem_cons_self
  have hdirectory : ¬ linkedDirectory.directoryPassesLink ⟨"trees/a.json"⟩ := by decide +kernel
  exact ⟨hfiles, hiff.mpr (.inl hdirectory)⟩

/-- Links are not allowed, and yet a file is reached through a link to its directory. -/
theorem not_contained :
    ¬ ∀ (store : Store) (settings : Settings) (selected : List Selected),
      files store settings = .ok selected →
      ∀ file ∈ selected, Contained store settings file.path := by
  intro h
  have hfiles : files linkedDirectory
      { workingDirectory := ["home"], content := ["link/*.json"] } =
        .ok [⟨⟨"link/a.json"⟩, 2⟩] := ok_of_toOption (by decide +kernel)
  have hpasses : linkedDirectory.passesLink ⟨"link/a.json"⟩ := by decide +kernel
  exact (h _ _ _ hfiles _ List.mem_cons_self).1 rfl hpasses

end Selection

end FlexFold
