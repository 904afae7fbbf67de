import FlexFold.Proofs.Run.AllOrNothing
import FlexFold.Proofs.Run.Skipped
import FlexFold.Proofs.Run.Writes

/-!
Outputs that can be read back. A file is never lost to another file that is written in its place,
since both hold one text then. But nobody checks where temporary files and the manifest go, and a
file can be lost to them.
-/

namespace FlexFold

theorem Text.decode_toUTF8 (text : String) : Text.decode text.toUTF8 = .ok text := by
  have hvalid : text.toUTF8.IsValidUTF8 := text.isValidUTF8
  unfold Text.decode String.fromUTF8?
  rw [dif_pos hvalid]
  rfl

namespace Run

open Store (Keeps Stands temporary)

variable {host : Host} {request : Request} {report : Report} {origin store after : Store}
  {written : List (Path × String)} {path : Path} {text : String} {x : Location}

/-! ### Outputs that are read back -/

/-- A later output that leaves an earlier one as it is. -/
structure Spares (store : Store) (later earlier : Path × String) : Prop where
  way : store.Avoids later.1 earlier.1
  temporary : store.place? (temporary later.1) ≠ store.place? earlier.1
  agree : ∀ x, store.place? earlier.1 = some x → store.place? later.1 = some x →
    later.2 = earlier.2

/-- The first of some outputs stands in its place if all others spare it. -/
theorem Writes.locate_head (h : Writes origin store ((path, text) :: written) after)
    (hunlinked : ∀ output ∈ (path, text) :: written,
      origin.bearsLink (temporary output.1) = false)
    (hown : origin.Avoids path path)
    (hspares : ∀ output ∈ written, Spares origin output (path, text)) :
    ∃ place, origin.place? path = some place ∧
      after.locate true path = .ok (.entry place (.file text.toUTF8)) := by
  cases h with
  | @next _ made _ _ _ _ _ place temp hmade hgrown hreplaced hplace htemp hwrites =>
      have hentry : after.entry? place = some (.file text.toUTF8) := by
        refine hwrites.file_kept ?_ (fun output houtput => ?_) (fun output houtput hsame => ?_)
        · rw [hreplaced.entry, if_pos rfl]
        · exact hplace ▸ (hspares output houtput).temporary
        · rw [(hspares output houtput).agree place hplace hsame]
      -- The path is followed from where its directories were made, over all that is written since.
      have hall : Writes origin made ((path, text) :: written) after :=
        .next (.refl made) hgrown hreplaced hplace htemp hwrites
      obtain ⟨way, hway, -, hkeep, -⟩ := hreplaced.stands.exists_way hgrown
      have havoids : ∀ output ∈ (path, text) :: written, origin.Avoids output.1 path :=
        List.forall_mem_cons.mpr ⟨hown, fun output houtput => (hspares output houtput).way⟩
      have hstands : Stands after path place := by
        refine hkeep (hall.keeps fun x hx target hlink => ?_)
        refine untouched_of_link hunlinked (fun output houtput => ?_) (hgrown.link x target hlink)
        exact havoids output houtput x (by rwa [Store.crossedAbove, hway])
      have hlocate : after.locate true path = .ok (after.spotAt place) :=
        hstands.locate (.inr (by simp [hentry]))
      rw [Store.spotAt, hentry] at hlocate
      exact ⟨place, hplace, hlocate⟩

/-- Outputs stand in their places if each of them is spared by all later ones. -/
theorem Writes.locate_of_mem (h : Writes origin store written after)
    (hunlinked : ∀ output ∈ written,
      origin.bearsLink (temporary output.1) = false)
    (hown : ∀ output ∈ written, origin.Avoids output.1 output.1)
    (hspares : written.Pairwise fun earlier later => Spares origin later earlier)
    {output : Path × String} (houtput : output ∈ written) :
    ∃ place, origin.place? output.1 = some place ∧
      after.locate true output.1 = .ok (.entry place (.file output.2.toUTF8)) := by
  induction written generalizing store with
  | nil => simp at houtput
  | cons head written ih =>
      rw [List.pairwise_cons] at hspares
      obtain ⟨hownHead, hownTail⟩ := List.forall_mem_cons.mp hown
      rcases List.mem_cons.mp houtput with rfl | hlater
      · exact h.locate_head hunlinked hownHead hspares.1
      · cases h with
        | next _ _ _ _ _ hwrites =>
            exact ih hwrites (List.forall_mem_cons.mp hunlinked).2 hownTail hspares.2 hlater

theorem Writes.readText_of_mem (h : Writes origin store written after)
    (hunlinked : ∀ output ∈ written,
      origin.bearsLink (temporary output.1) = false)
    (hown : ∀ output ∈ written, origin.Avoids output.1 output.1)
    (hspares : written.Pairwise fun earlier later => Spares origin later earlier)
    {output : Path × String} (houtput : output ∈ written) :
    after.readText output.1 = .ok output.2 := by
  obtain ⟨place, -, hlocate⟩ := h.locate_of_mem hunlinked hown hspares houtput
  rw [Store.readText_of_locate hlocate, Text.decode_toUTF8]
  rfl

/-! ### Runs -/

/-- A path that is out of the way of what a run writes and of what it skips. -/
structure OutOfWay (store : Store) (request : Request) (report : Report) (path : Path) :
    Prop where
  own : store.Avoids path path
  written : ∀ file ∈ pendingFiles request report, store.Avoids path file.destination ∧
    store.place? path ≠ store.place? file.destination
  skipped : ∀ file ∈ report.files, file ∉ pendingFiles request report →
    ∀ x ∈ store.crossedTo file.destination, store.place? path ≠ some x

instance (store : Store) (request : Request) (report : Report) (path : Path) :
    Decidable (OutOfWay store request report path) :=
  decidable_of_iff (store.Avoids path path ∧
      (∀ file ∈ pendingFiles request report, store.Avoids path file.destination ∧
        store.place? path ≠ store.place? file.destination) ∧
      ∀ file ∈ report.files, file ∉ pendingFiles request report →
        ∀ x ∈ store.crossedTo file.destination, store.place? path ≠ some x)
    ⟨fun ⟨own, written, skipped⟩ => ⟨own, written, skipped⟩,
      fun h => ⟨h.own, h.written, h.skipped⟩⟩

/-- What a run takes for granted of the places where it writes. -/
structure Apart (store : Store) (request : Request) (report : Report) : Prop where
  /-- No link bears the name of a temporary file. -/
  unlinked : ∀ output ∈ outputs request report, store.bearsLink (temporary output.1) = false
  /-- No output has its temporary file in the place of an earlier one. -/
  temporaries : (outputs request report).Pairwise fun earlier later =>
    store.place? (temporary later.1) ≠ store.place? earlier.1
  /-- No output has its temporary file in the place of a skipped file. -/
  skipped : ∀ file ∈ report.files, file ∉ pendingFiles request report →
    ∀ output ∈ outputs request report,
      store.place? (temporary output.1) ≠ store.canonical? file.destination
  /-- No file replaces a link on the way to the directory where all files go. -/
  outDir : request.inPlace = false → ∀ file ∈ report.files, ∀ other ∈ report.files,
    store.Avoids file.destination other.destination
  /-- The manifest goes where no file goes, stays or is reached through. -/
  manifest : ∀ path ∈ request.manifest, OutOfWay store request report path

theorem apart_iff : Apart store request report ↔
    (∀ output ∈ outputs request report, store.bearsLink (temporary output.1) = false) ∧
    ((outputs request report).Pairwise fun earlier later =>
      store.place? (temporary later.1) ≠ store.place? earlier.1) ∧
    (∀ file ∈ report.files, file ∉ pendingFiles request report →
      ∀ output ∈ outputs request report,
        store.place? (temporary output.1) ≠ store.canonical? file.destination) ∧
    (request.inPlace = false → ∀ file ∈ report.files, ∀ other ∈ report.files,
      store.Avoids file.destination other.destination) ∧
    ∀ path ∈ request.manifest, OutOfWay store request report path := by
  constructor
  · exact fun h => ⟨h.unlinked, h.temporaries, h.skipped, h.outDir, h.manifest⟩
  · rintro ⟨unlinked, temporaries, skipped, outDir, manifest⟩
    exact ⟨unlinked, temporaries, skipped, outDir, manifest⟩

instance (store : Store) (request : Request) (report : Report) :
    Decidable (Apart store request report) := decidable_of_iff _ apart_iff.symm

section

variable {settings : Settings} {selected : List Selected} {targets : List Path}
  {file other : RewrittenFile}

/-- No file replaces a link on the way to another one. -/
theorem Prepared.avoids (h : Prepared host request store report settings selected targets)
    (hapart : Apart store request report) (hfile : file ∈ report.files)
    (hother : other ∈ report.files) : store.Avoids file.destination other.destination := by
  cases hplace : request.inPlace with
  | false => exact hapart.outDir hplace file hfile other hother
  | true =>
      intro x hx hfileAt
      obtain ⟨hstands, location, bytes, hlocate⟩ := h.stands hplace hfile hfileAt
      obtain ⟨location', bytes', hlocate'⟩ := h.exists_file hother
      obtain ⟨y, hotherStands⟩ := Store.exists_stands hlocate' (by simp)
      rw [h.destination_eq hplace hother] at hx
      exact hstands.not_crossed hlocate hotherStands hx

/-- No output replaces a link on the way to itself. -/
theorem Prepared.avoids_self (h : Prepared host request store report settings selected targets)
    (hapart : Apart store request report) :
    ∀ output ∈ outputs request report, store.Avoids output.1 output.1 := by
  intro output houtput
  rcases mem_outputs_iff.mp houtput with ⟨file, hfile, rfl⟩ | ⟨path, hpath, rfl⟩
  · have hfile := mem_of_mem_pendingFiles hfile
    exact h.avoids hapart hfile hfile
  · exact (hapart.manifest path hpath).own

theorem Prepared.spares (h : Prepared host request store report settings selected targets)
    (hapart : Apart store request report) :
    (outputs request report).Pairwise fun earlier later => Spares store later earlier := by
  have htemporaries := hapart.temporaries
  rw [outputs, List.pairwise_append] at htemporaries ⊢
  obtain ⟨hfiles, -, hmanifest⟩ := htemporaries
  refine ⟨?_, ?_, ?_⟩
  · rw [List.pairwise_map] at hfiles ⊢
    refine (hfiles.and h.contents_agree).imp_of_mem ?_
    rintro earlier later hearlier hlater ⟨htemporary, hagree⟩
    have hway := h.avoids hapart (mem_of_mem_pendingFiles hlater) (mem_of_mem_pendingFiles hearlier)
    exact ⟨hway, htemporary, hagree⟩
  · cases request.manifest <;> simp
  · intro earlier hearlier later hlater
    obtain ⟨file, hfile, rfl⟩ := List.mem_map.mp hearlier
    have htemporary := hmanifest _ hearlier _ hlater
    obtain ⟨path, hpath, rfl⟩ := List.mem_map.mp hlater
    obtain ⟨hway, hplace⟩ := (hapart.manifest path (Option.mem_toList.mp hpath)).written file hfile
    exact ⟨hway, htemporary, fun x hx hx' => absurd (hx'.trans hx.symm) hplace⟩

/-- No output takes the place of a skipped file or of a link on the way to it. -/
theorem Prepared.place?_ne_of_skipped
    (h : Prepared host request store report settings selected targets)
    (hapart : Apart store request report) (hfile : file ∈ report.files)
    (hskip : file ∉ pendingFiles request report) (hx : x ∈ store.crossedTo file.destination) :
    ∀ output ∈ outputs request report, store.place? output.1 ≠ some x := by
  intro output houtput hplaceAt
  rcases mem_outputs_iff.mp houtput with ⟨other, hother, rfl⟩ | ⟨path, hpath, rfl⟩
  · have hplace := inPlace_of_not_pending hfile hskip
    have hsource := h.destination_eq hplace hfile
    obtain ⟨location, bytes, hlocate⟩ := h.exists_file hfile
    obtain ⟨hstands, location', bytes', hlocate'⟩ :=
      h.stands hplace (mem_of_mem_pendingFiles hother) hplaceAt
    -- Where the written file stands on the way to the skipped one, both hold the same text.
    have hsame : store.locate true other.source = store.locate true file.source := by
      rw [hsource] at hx
      exact hstands.locate_of_crossed hlocate' hlocate hx
    refine h.readText_ne_of_skipped hfile hskip hother ?_
    rw [Store.readText_of_locate hlocate, Store.readText_of_locate (hsame.trans hlocate)]
  · exact (hapart.manifest path hpath).skipped file hfile hskip x hx hplaceAt

/-- A skipped file is reached where it was, with what it held. -/
theorem Writes.locate_of_skipped (hwrites : Writes store store (outputs request report) after)
    (h : Prepared host request store report settings selected targets)
    (hapart : Apart store request report) (hfile : file ∈ report.files)
    (hskip : file ∉ pendingFiles request report) :
    ∃ location bytes,
      store.locate true file.destination = .ok (.entry location (.file bytes)) ∧
      after.locate true file.destination = .ok (.entry location (.file bytes)) := by
  obtain ⟨location, bytes, hlocate⟩ := h.exists_file hfile
  rw [← h.destination_eq (inPlace_of_not_pending hfile hskip) hfile] at hlocate
  refine ⟨location, bytes, hlocate, ?_⟩
  obtain ⟨hcheck, harrives⟩ := Store.locate_eq_ok_iff.mp hlocate
  obtain ⟨crossed, hway, hkeep, -⟩ := harrives.exists_way
  have hplaces : ∀ x ∈ location :: crossed, ∀ output ∈ outputs request report,
      store.place? output.1 ≠ some x := by
    have hcrossed : store.crossedTo file.destination = location :: crossed := by
      rw [Store.crossedTo, Store.wayTo?, hway]
    exact fun x hx => h.place?_ne_of_skipped hapart hfile hskip (hcrossed ▸ hx)
  have hkeeps : Keeps store after crossed := by
    refine hwrites.keeps fun x hx target hlink => ?_
    exact untouched_of_link hapart.unlinked (hplaces x (List.mem_cons_of_mem _ hx)) hlink
  have hcanonical : store.canonical? file.destination = some location := by
    rw [Store.canonical?, Store.find?_eq_some_iff.mpr hlocate, Option.map_some]
  have hentry : after.entry? location = some (.file bytes) := by
    refine hwrites.entry_of_untouched (fun output houtput => ⟨?_, ?_⟩) harrives.entry?_eq
    · exact hplaces location List.mem_cons_self output houtput
    · exact hcanonical ▸ hapart.skipped file hfile hskip output houtput
  rw [Store.locate_eq_ok_iff, hkeeps.start_eq]
  exact ⟨hcheck, hkeep hkeeps hentry⟩

end

/-- After a run every output can be read back, a skipped file still holds what it held, and the
manifest is where it was asked for, as long as temporary files and the manifest keep away from the
places of the others. -/
theorem run_keepsOutputs (hrun : run host request store = .ok report after)
    (hwrites : request.dryRun = false) (hapart : Apart store request report) :
    (∀ file ∈ pendingFiles request report,
      after.readText file.destination = .ok file.content) ∧
    (∀ file ∈ report.files, file ∉ pendingFiles request report → ∃ location bytes,
      store.find? true file.destination = some (location, .file bytes) ∧
      after.find? true file.destination = some (location, .file bytes)) ∧
    ∀ path, request.manifest = some path →
      after.readText path = .ok (report.manifest.print (manifestLayout request)) := by
  obtain ⟨hprepare, hwrites⟩ := writes_of_run hrun hwrites hapart.unlinked
  obtain ⟨settings, selected, targets, h⟩ := prepared_of_prepare hprepare
  have hread : ∀ output ∈ outputs request report, after.readText output.1 = .ok output.2 :=
    fun _ => hwrites.readText_of_mem hapart.unlinked (h.avoids_self hapart) (h.spares hapart)
  refine ⟨fun file hfile => ?_, fun file hfile hskip => ?_, fun path hpath => ?_⟩
  · exact hread (file.destination, file.content) (mem_outputs_iff.mpr (.inl ⟨file, hfile, rfl⟩))
  · obtain ⟨location, bytes, hbefore, hafter⟩ := hwrites.locate_of_skipped h hapart hfile hskip
    exact ⟨location, bytes, Store.find?_eq_some_iff.mpr hbefore, Store.find?_eq_some_iff.mpr hafter⟩
  · exact hread (path, report.manifest.print (manifestLayout request))
      (mem_outputs_iff.mpr (.inr ⟨path, hpath, rfl⟩))

/-! ### Runs over fixed files -/

/-- A tree that a run changes beside one that it leaves as it is. -/
def changedBesideKept : Store :=
  ((Store.ofWorkingDirectory ["home"]).put ["home", "a.json"]
    (.file flexTree.toUTF8)).put
    ["home", "b.json"] (.file textTree.toUTF8)

/-- A request to rewrite both of them in place, with a manifest. -/
def inPlaceWithManifest : Request :=
  { input := ["a.json", "b.json"], inPlace := true, manifest := some ⟨"flex.manifest"⟩ }

/-- A run in place with one file that is written, one that is skipped, and a manifest. -/
theorem run_keepsOutputs_inPlace :
    ∃ report after, run epoch inPlaceWithManifest changedBesideKept = .ok report after ∧
      report.files.map RewrittenFile.destination = [⟨"a.json"⟩, ⟨"b.json"⟩] ∧
      (pendingFiles inPlaceWithManifest report).map RewrittenFile.destination = [⟨"a.json"⟩] ∧
      (∀ file ∈ pendingFiles inPlaceWithManifest report,
        after.readText file.destination = .ok file.content) ∧
      (∀ file ∈ report.files, file ∉ pendingFiles inPlaceWithManifest report →
        ∃ location bytes,
          changedBesideKept.find? true file.destination = some (location, .file bytes) ∧
          after.find? true file.destination = some (location, .file bytes)) ∧
      ∀ path, inPlaceWithManifest.manifest = some path →
        after.readText path = .ok (report.manifest.print (manifestLayout inPlaceWithManifest)) := by
  have hreport : ((outcome (run epoch inPlaceWithManifest changedBesideKept)).toOption.map
      fun report => (report.files.map RewrittenFile.destination,
        (pendingFiles inPlaceWithManifest report).map RewrittenFile.destination,
        decide (Apart changedBesideKept inPlaceWithManifest report))) =
      some ([⟨"a.json"⟩, ⟨"b.json"⟩], [⟨"a.json"⟩], true) := by decide +kernel
  cases hrun : run epoch inPlaceWithManifest changedBesideKept with
  | error failure after => simp [hrun, outcome, Except.toOption] at hreport
  | ok report after =>
      rw [hrun] at hreport
      simp only [outcome, Except.toOption, Option.map_some, Option.some.injEq, Prod.mk.injEq,
        decide_eq_true_eq] at hreport
      obtain ⟨hfiles, hpending, hapart⟩ := hreport
      exact ⟨report, after, rfl, hfiles, hpending, run_keepsOutputs hrun rfl hapart⟩

/-- Two trees that go to one directory, where the first one gets the name of the temporary file of
the second one. -/
def clashing : Store :=
  (((Store.ofWorkingDirectory ["home"]).put ["home", "a.json"]
    (.file textTree.toUTF8)).put ["home", "b"] .directory).put
    ["home", "b", "a.json.tmp"] (.file textTree.toUTF8)

def intoOut : Request := { input := ["b/a.json.tmp", "a.json"], outDir := some ⟨"out"⟩ }

/-- The run succeeds and reports both files, and only one of them is there. -/
theorem not_run_keepsOutputs :
    ¬ ∀ (clock : Clock) (request : Request) (store after : Store) (report : Report),
      run clock request store = .ok report after → request.dryRun = false →
      (∀ file ∈ pendingFiles request report,
        after.readText file.destination = .ok file.content) ∧
      (∀ file ∈ report.files, file ∉ pendingFiles request report → ∃ location bytes,
        store.find? true file.destination = some (location, .file bytes) ∧
        after.find? true file.destination = some (location, .file bytes)) ∧
      ∀ path, request.manifest = some path →
        after.readText path = .ok (report.manifest.print (manifestLayout request)) := by
  intro h
  have hpending : ((outcome (run epoch intoOut clashing)).toOption.map fun report =>
      (pendingFiles intoOut report).map RewrittenFile.destination) =
      some [⟨"out/a.json.tmp"⟩, ⟨"out/a.json"⟩] := by decide +kernel
  have hmissing : ((storeAfter (run epoch intoOut clashing)).readText
      ⟨"out/a.json.tmp"⟩).toOption = none := by decide +kernel
  cases hrun : run epoch intoOut clashing with
  | error failure after => simp [hrun, outcome, Except.toOption] at hpending
  | ok report after =>
      rw [hrun] at hpending hmissing
      have hmem : (⟨"out/a.json.tmp"⟩ : Path) ∈
          (pendingFiles intoOut report).map RewrittenFile.destination := by
        rw [show (pendingFiles intoOut report).map RewrittenFile.destination = _ from
          Option.some.inj hpending]
        exact List.mem_cons_self
      obtain ⟨file, hfile, hpath⟩ := List.mem_map.mp hmem
      have hread := (h _ _ _ _ _ hrun rfl).1 file hfile
      rw [hpath] at hread
      simp [storeAfter, hread, Except.toOption] at hmissing

end Run
end FlexFold
