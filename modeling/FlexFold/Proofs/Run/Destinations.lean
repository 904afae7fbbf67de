import FlexFold.Proofs.Run.Prepare
import FlexFold.Proofs.Store.Names
import FlexFold.Proofs.Store.Way

/-!
Where rewritten trees go. In a directory every file keeps its name, and no two files go to the
same path. In place two paths may name one file, which then is written twice with one text.
-/

namespace FlexFold

/-- A longer path names a place that bears its last name. -/
theorem Store.place?_join {store : Store} {directory : Path} {name : String}
    {location : Location} (hname : Path.IsName name)
    (h : store.place? (directory.join name) = some location) :
    location.getLast? = some name := by
  obtain ⟨front, hstrides⟩ := strides_join directory hname
  rw [place?, hstrides, List.getLast?_concat] at h
  obtain ⟨way, -, rfl⟩ := Option.map_eq_some_iff.mp h
  exact List.getLast?_concat

namespace Run

open Attempt
open Store (Stands)

/-- Two files that go to different paths in a directory. -/
def GoApart (directory first second : Path) : Prop :=
  ∀ name name', first.fileName? = some name → second.fileName? = some name' →
    (directory.join name').same (directory.join name) = false

theorem destinationsIn_succeeds_iff {directory : Path} {taken sources : List Path} :
    (∃ targets, destinationsIn directory taken sources = .ok targets) ↔
      (∀ source ∈ sources, ∃ name, source.fileName? = some name ∧
        ∀ other ∈ taken, (directory.join name).same other = false) ∧
      sources.Pairwise (GoApart directory) := by
  induction sources generalizing taken with
  | nil => simp [destinationsIn]
  | cons source sources ih =>
      rw [destinationsIn, List.forall_mem_cons, List.pairwise_cons]
      cases hname : source.fileName? with
      | none => simp
      | some name =>
          dsimp only
          by_cases htaken : taken.any (directory.join name).same = true
          · rw [if_pos htaken]
            obtain ⟨other, hother, hsame⟩ := List.any_eq_true.mp htaken
            simp only [reduceCtorEq, exists_false, Option.some.injEq, exists_eq_left', false_iff]
            rintro ⟨⟨hfree, -⟩, -⟩
            simp [hfree other hother] at hsame
          · have hfree : ∀ other ∈ taken, (directory.join name).same other = false := by
              simpa using htaken
            rw [if_neg htaken]
            rw [map_succeeds_iff, ih]
            simp only [List.forall_mem_cons, Option.some.injEq, exists_eq_left']
            constructor
            · rintro ⟨hsources, hpairwise⟩
              refine ⟨⟨hfree, fun other hother => ?_⟩, fun other hother => ?_, hpairwise⟩
              · obtain ⟨name', hname', -, hothers⟩ := hsources other hother
                exact ⟨name', hname', hothers⟩
              · intro _ _ h h'
                obtain ⟨name', hname', happart, -⟩ := hsources other hother
                rw [hname] at h
                rw [hname'] at h'
                obtain rfl := Option.some.inj h
                obtain rfl := Option.some.inj h'
                exact happart
            · rintro ⟨⟨-, hsources⟩, happart, hpairwise⟩
              refine ⟨fun other hother => ?_, hpairwise⟩
              obtain ⟨name', hname', hothers⟩ := hsources other hother
              exact ⟨name', hname', happart other hother name name' hname hname', hothers⟩

theorem destinations_succeeds_iff {request : Request} {sources : List Path} :
    (∃ targets, destinations request sources = .ok targets) ↔
      ∀ directory, request.outDir = some directory →
        (∀ source ∈ sources, ∃ name, source.fileName? = some name) ∧
          sources.Pairwise (GoApart directory) := by
  unfold destinations
  cases request.outDir with
  | none => simp
  | some directory => simp [destinationsIn_succeeds_iff]

/-- Destinations are new names in the directory, and each is unlike those that were taken
before. -/
theorem destinationsIn_spec {directory : Path} {taken sources targets : List Path}
    (h : destinationsIn directory taken sources = .ok targets) :
    (∀ target ∈ targets, (∃ name, Path.IsName name ∧ target = directory.join name) ∧
      ∀ other ∈ taken, target.same other = false) ∧
    targets.Pairwise fun earlier later => later.same earlier = false := by
  induction sources generalizing taken targets with
  | nil =>
      obtain rfl := Except.ok.inj h
      simp
  | cons source sources ih =>
      rw [destinationsIn] at h
      split at h
      · simp at h
      · rename_i name hname
        dsimp only at h
        split at h
        · simp at h
        · rename_i hfree
          obtain ⟨rest, hrest, rfl⟩ := map_eq_ok_iff.mp h
          obtain ⟨hall, hpairwise⟩ := ih hrest
          refine ⟨List.forall_mem_cons.mpr ⟨⟨⟨name, ?_, rfl⟩, by simpa using hfree⟩, ?_⟩,
            List.pairwise_cons.mpr ⟨?_, hpairwise⟩⟩
          · exact Path.isName_of_fileName? hname
          · exact fun target htarget => ⟨(hall target htarget).1, fun other hother =>
              (hall target htarget).2 other (List.mem_cons_of_mem _ hother)⟩
          · exact fun target htarget => (hall target htarget).2 _ List.mem_cons_self

/-! ### Files with one place -/

section

variable {host : Host} {request : Request} {store : Store} {report : Report}
  {settings : Settings} {selected : List Selected} {targets : List Path}
  {file other : RewrittenFile} {x : Location}

/-- In place, a file is read from where it is written. -/
theorem Prepared.stands (h : Prepared host request store report settings selected targets)
    (hplace : request.inPlace = true) (hfile : file ∈ report.files)
    (hx : store.place? file.destination = some x) :
    Stands store file.source x ∧
      ∃ location bytes, store.locate true file.source = .ok (.entry location (.file bytes)) := by
  obtain ⟨location, bytes, hlocate⟩ := h.exists_file hfile
  obtain ⟨y, hstands⟩ := Store.exists_stands hlocate (by simp)
  rw [h.destination_eq hplace hfile, hstands.place?_eq (.refl store)] at hx
  obtain rfl := Option.some.inj hx
  exact ⟨hstands, location, bytes, hlocate⟩

/-- Two files with one place become the same. -/
theorem Prepared.eq_of_place (h : Prepared host request store report settings selected targets)
    (hplace : request.inPlace = true) (hfile : file ∈ report.files) (hother : other ∈ report.files)
    (hx : store.place? file.destination = some x)
    (hx' : store.place? other.destination = some x) :
    file.content = other.content ∧ file.stats = other.stats := by
  obtain ⟨hstands, location, bytes, hlocate⟩ := h.stands hplace hfile hx
  obtain ⟨hstands', location', bytes', hlocate'⟩ := h.stands hplace hother hx'
  obtain ⟨rfl, hbytes⟩ := Store.Spot.entry.inj (hstands.locate_unique hstands' hlocate hlocate')
  obtain rfl := Entry.file.inj hbytes
  apply h.eq_of_readText hfile hother
  rw [Store.readText_of_locate hlocate, Store.readText_of_locate hlocate']

/-- No two files go to one place in a directory. -/
theorem Prepared.places_apart
    (h : Prepared host request store report settings selected targets) {directory : Path}
    (hdirectory : request.outDir = some directory) :
    report.files.Pairwise fun earlier later => ∀ x,
      store.place? earlier.destination = some x → store.place? later.destination ≠ some x := by
  have hplanned := h.planned
  rw [Run.destinations, hdirectory, ← h.destinations] at hplanned
  obtain ⟨hnames, happart⟩ := destinationsIn_spec hplanned
  refine (List.pairwise_map.mp happart).imp_of_mem ?_
  intro earlier later hearlier hlater hdiffer x hx hx'
  obtain ⟨⟨name, hname, hpath⟩, -⟩ := hnames _ (List.mem_map_of_mem hearlier)
  obtain ⟨⟨name', hname', hpath'⟩, -⟩ := hnames _ (List.mem_map_of_mem hlater)
  rw [hpath] at hx
  rw [hpath'] at hx'
  obtain rfl : name = name' := Option.some.inj
    ((Store.place?_join hname hx).symm.trans (Store.place?_join hname' hx'))
  rw [hpath, hpath'] at hdiffer
  simp [Path.same_self] at hdiffer

/-- Files that go to one place are written with one text. -/
theorem Prepared.contents_agree
    (h : Prepared host request store report settings selected targets) :
    (pendingFiles request report).Pairwise fun earlier later => ∀ x,
      store.place? earlier.destination = some x → store.place? later.destination = some x →
      later.content = earlier.content := by
  rcases outDir_of_check h.check with ⟨hplace, -⟩ | ⟨hplace, directory, hdirectory⟩
  · rw [List.pairwise_iff_forall_sublist]
    intro earlier later hsub x hearlier hlater
    have hmem : ∀ file ∈ [earlier, later], file ∈ report.files :=
      fun file hfile => mem_of_mem_pendingFiles (hsub.subset hfile)
    exact (h.eq_of_place hplace (hmem later (by simp)) (hmem earlier (by simp)) hlater hearlier).1
  · rw [pendingFiles, if_neg (by simp [hplace])]
    exact (h.places_apart hdirectory).imp fun hapart x hx hx' => absurd hx' (hapart x hx)

end

end Run
end FlexFold
