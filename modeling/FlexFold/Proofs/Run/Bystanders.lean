import FlexFold.Proofs.Run.AllOrNothing
import FlexFold.Proofs.Run.Writes

/-!
What a run leaves alone. An entry where no output goes is as it was, unless it bears the name of a
temporary file, which nobody checks: then it is gone.
-/

namespace FlexFold.Run

open Store (temporary)

variable {host : Host} {request : Request} {report : Report} {origin store after : Store}
  {written : List (Path × String)} {x : Location} {entry : Entry}

/-- What holds no file gets one only where an output goes. -/
theorem Writes.no_file (h : Writes origin store written after)
    (hx : ∀ output ∈ written, origin.place? output.1 ≠ some x)
    (hentry : ∀ bytes, store.entry? x ≠ some (.file bytes)) (bytes : ByteArray) :
    after.entry? x ≠ some (.file bytes) := by
  induction h with
  | done => exact hentry bytes
  | @next _ made _ _ _ _ _ place temp hmade _ hreplaced hplace _ _ ih =>
      obtain ⟨hpath, hrest⟩ := List.forall_mem_cons.mp hx
      have hnotPlace : x ≠ place := fun e => hpath (e ▸ hplace)
      apply ih hrest
      intro bytes
      rw [hreplaced.entry, if_neg hnotPlace]
      split
      · simp
      · rcases hmade.entry x with hsame | ⟨-, hdirectory⟩
        · rw [hsame]
          exact hentry bytes
        · simp [hdirectory]

/-- What bears the name of a temporary file is lost. -/
theorem Writes.entry_ne_of_temporary (h : Writes origin store written after)
    (hx : ∀ output ∈ written, origin.place? output.1 ≠ some x)
    (htemporary : ∃ output ∈ written, origin.place? (temporary output.1) = some x)
    (hentry : store.entry? x = some entry) : after.entry? x ≠ some entry := by
  induction h with
  | done => simp at htemporary
  | @next _ made next _ path _ _ place temp hmade _ hreplaced hplace htemp hwrites ih =>
      obtain ⟨hpath, hrest⟩ := List.forall_mem_cons.mp hx
      have hnotPlace : x ≠ place := fun e => hpath (e ▸ hplace)
      have hstill := hmade.entry_of_some hentry
      by_cases hsame : x = temp
      · obtain ⟨bytes, rfl⟩ := hreplaced.free entry (hsame ▸ hstill)
        have hnext : next.entry? x = none := by
          rw [hreplaced.entry, if_neg hnotPlace, if_pos hsame]
        exact hwrites.no_file hrest (by simp [hnext]) bytes
      · obtain ⟨output, houtput, htemporary⟩ := htemporary
        rcases List.mem_cons.mp houtput with rfl | houtput
        · exact absurd (Option.some.inj (htemporary.symm.trans htemp)) hsame
        · apply ih hrest ⟨output, houtput, htemporary⟩
          rw [hreplaced.entry, if_neg hnotPlace, if_neg hsame, hstill]

/-- An entry where no output goes is as it was after a run if and only if no output has a
temporary file of its name. -/
theorem bystander_kept_iff (hrun : run host request store = .ok report after)
    (hwrites : request.dryRun = false)
    (hlinks : ∀ output ∈ outputs request report, store.bearsLink (temporary output.1) = false)
    (hentry : store.entry? x = some entry)
    (hbystander : ∀ output ∈ outputs request report, store.place? output.1 ≠ some x) :
    after.entry? x = some entry ↔
      ∀ output ∈ outputs request report, store.place? (temporary output.1) ≠ some x := by
  obtain ⟨-, h⟩ := writes_of_run hrun hwrites hlinks
  constructor
  · intro hkept output houtput htemporary
    exact h.entry_ne_of_temporary hbystander ⟨output, houtput, htemporary⟩ hentry hkept
  · intro htemporary
    refine h.entry_of_untouched (fun output houtput => ?_) hentry
    exact ⟨hbystander output houtput, htemporary output houtput⟩

/-! ### A note beside an output -/

/-- A tree, and a note that bears the name of a temporary file. -/
def noted : Store :=
  (((Store.ofWorkingDirectory ["home"]).put ["home", "a.json"]
    (.file textTree.toUTF8)).put ["home", "out"] .directory).put
    ["home", "out", "a.json.tmp"] (.file "notes".toUTF8)

/-- A request to write that tree to the directory of the note. -/
def intoNoted : Request := { input := ["a.json"], outDir := some ⟨"out"⟩ }

theorem exists_run_noted :
    ∃ report after, run epoch intoNoted noted = .ok report after ∧
      ∀ output ∈ outputs intoNoted report, output.1 = ⟨"out/a.json"⟩ := by
  have hpaths : ((outcome (run epoch intoNoted noted)).toOption.map fun report =>
      (outputs intoNoted report).map Prod.fst) = some [⟨"out/a.json"⟩] := by decide +kernel
  cases hrun : run epoch intoNoted noted with
  | error failure after => simp [hrun, outcome, Except.toOption] at hpaths
  | ok report after =>
      rw [hrun] at hpaths
      refine ⟨report, after, rfl, fun output houtput => ?_⟩
      have hmem : output.1 ∈ [(⟨"out/a.json"⟩ : Path)] :=
        Option.some.inj hpaths ▸ List.mem_map_of_mem houtput
      exact List.mem_singleton.mp hmem

theorem bystander_kept_noted :
    ∃ report after, run epoch intoNoted noted = .ok report after ∧
      after.entry? ["home", "a.json"] = some (.file textTree.toUTF8) := by
  obtain ⟨report, after, hrun, hpaths⟩ := exists_run_noted
  have hnote : noted.bearsLink (temporary ⟨"out/a.json"⟩) = false := by decide +kernel
  have hplace : noted.place? ⟨"out/a.json"⟩ ≠ some ["home", "a.json"] := by decide +kernel
  have htemp : noted.place? (temporary ⟨"out/a.json"⟩) ≠ some ["home", "a.json"] := by
    decide +kernel
  refine ⟨report, after, hrun, (bystander_kept_iff hrun rfl ?_ (by decide +kernel) ?_).mpr ?_⟩
  · intro output houtput
    rw [hpaths output houtput]
    exact hnote
  · intro output houtput
    rw [hpaths output houtput]
    exact hplace
  · intro output houtput
    rw [hpaths output houtput]
    exact htemp

/-- The note is neither the tree nor the manifest that is written, and yet it is not kept. -/
theorem not_bystander_kept :
    ¬ ∀ (clock : Clock) (request : Request) (store after : Store) (report : Report),
      run clock request store = .ok report after → request.dryRun = false →
      ∀ x entry, store.entry? x = some entry →
        (∀ output ∈ outputs request report, store.place? output.1 ≠ some x) →
        after.entry? x = some entry := by
  intro h
  obtain ⟨report, after, hrun, hpaths⟩ := exists_run_noted
  have hplace : noted.place? ⟨"out/a.json"⟩ ≠ some ["home", "out", "a.json.tmp"] := by
    decide +kernel
  have hkept := h _ _ _ _ _ hrun rfl ["home", "out", "a.json.tmp"] (.file "notes".toUTF8)
    (by decide +kernel) (fun output houtput => by rw [hpaths output houtput]; exact hplace)
  have hgone : Store.entry? (storeAfter (run epoch intoNoted noted))
      ["home", "out", "a.json.tmp"] = none := by decide +kernel
  rw [hrun] at hgone
  simp [storeAfter, hkept] at hgone

end FlexFold.Run
