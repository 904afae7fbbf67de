import FlexFold.Proofs.Markup.FixedPoint
import FlexFold.Proofs.Run.Prepare

/-!
Files that a run in place does not write. Nothing is lost with them: the counters say that nothing
changed exactly if nothing did, so such a file holds the tree that would have been written.
-/

namespace FlexFold.Run

open Markup (Node)

/-! ### Counters and trees -/

theorem isUnchanged_iff (root : Node) : root.rewrite.2.isUnchanged ↔ root.folded = root := by
  rw [Node.rewrite_isUnchanged_iff, Node.folded_eq_self_iff]

theorem elementsChanged_le (root : Node) :
    root.rewrite.2.elementsChanged ≤ root.rewrite.2.elementsVisited := by
  rw [Node.rewrite_elementsChanged, Node.rewrite_elementsVisited]
  exact List.countP_le_length

/-! ### Skipped files -/

theorem inPlace_of_not_pending {request : Request} {report : Report} {file : RewrittenFile}
    (hfile : file ∈ report.files)
    (hskip : file ∉ pendingFiles request report) : request.inPlace = true := by
  cases hplace : request.inPlace with
  | true => rfl
  | false => simp [pendingFiles, hplace, hfile] at hskip

theorem isUnchanged_of_not_pending {request : Request} {report : Report} {file : RewrittenFile}
    (hfile : file ∈ report.files) (hskip : file ∉ pendingFiles request report) :
    file.stats.isUnchanged := by
  unfold pendingFiles at hskip
  split at hskip
  · simpa [hfile] using hskip
  · exact (hskip hfile).elim

/-- A skipped file holds a tree that the run would have printed as it is. -/
theorem Prepared.skipped {host : Host} {request : Request} {store : Store} {report : Report}
    {settings : Settings} {selected : List Selected} {targets : List Path}
    (h : Prepared host request store report settings selected targets) {file : RewrittenFile}
    (hfile : file ∈ report.files) (hskip : file ∉ pendingFiles request report) :
    ∃ text node, store.readText file.source = .ok text ∧ Node.parse text = .ok node ∧
      file.content = node.print (treeLayout settings request) := by
  obtain ⟨text, node, htext, hnode, hdone⟩ := rewriteAt_eq_ok_iff.mp (h.rewriteAt_of_mem hfile)
  obtain ⟨hcontent, hstats⟩ := Rewritten.mk.inj hdone
  have hunchanged := isUnchanged_of_not_pending hfile hskip
  rw [hstats, isUnchanged_iff] at hunchanged
  refine ⟨text, node, htext, hnode, ?_⟩
  rw [hcontent, Node.rewrite_eq, hunchanged]

/-- A skipped file holds another text than any file that is written. -/
theorem Prepared.readText_ne_of_skipped {host : Host} {request : Request} {store : Store}
    {report : Report} {settings : Settings} {selected : List Selected} {targets : List Path}
    (h : Prepared host request store report settings selected targets) {file other : RewrittenFile}
    (hfile : file ∈ report.files) (hskip : file ∉ pendingFiles request report)
    (hother : other ∈ pendingFiles request report) :
    store.readText other.source ≠ store.readText file.source := by
  intro hread
  have hunchanged := isUnchanged_of_not_pending hfile hskip
  rw [pendingFiles, if_pos (inPlace_of_not_pending hfile hskip), List.mem_filter] at hother
  have hstats := (h.eq_of_readText hother.1 hfile hread).2
  simp [hstats, hunchanged] at hother

/-- Where trees go plays no part in what becomes of them. -/
theorem outcomes_eq {host host' : Host} {request request' : Request} {store : Store}
    {report report' : Report} (hinput : request.input = request'.input)
    (hexclude : request.exclude = request'.exclude) (hconfig : request.config = request'.config)
    (hcompact : request.compact = request'.compact)
    (h : prepare host request store = .ok report)
    (h' : prepare host' request' store = .ok report') :
    report.files.map RewrittenFile.outcome = report'.files.map RewrittenFile.outcome := by
  obtain ⟨settings, selected, targets, h⟩ := prepared_of_prepare h
  obtain ⟨settings', selected', targets', h'⟩ := prepared_of_prepare h'
  have hsettings : Run.settings store request = Run.settings store request' := by
    simp only [Run.settings, hinput, hexclude, hconfig]
  obtain rfl : settings = settings' :=
    Except.ok.inj (h.settings_eq.symm.trans (hsettings.trans h'.settings_eq))
  obtain rfl : selected = selected' :=
    Except.ok.inj ((Selection.files_of_allowed h.found).symm.trans
      (Selection.files_of_allowed h'.found))
  have hlayout : treeLayout settings request = treeLayout settings request' := by
    simp only [treeLayout, hcompact]
  have houtcomes := h.outcomes.symm.trans (hlayout ▸ h'.outcomes)
  have hmap : (report.files.map RewrittenFile.outcome).map
      (Except.ok : _ → Except Failure (Path × Rewritten)) =
      (report'.files.map RewrittenFile.outcome).map Except.ok := by
    rw [List.map_map, List.map_map]
    exact houtcomes
  exact (List.map_inj_right fun _ _ => Except.ok.inj).mp hmap

/-- The counters say that nothing changed if and only if the tree is the same. So a run in place
skips a file only if it holds the tree that would be written, and runs that differ in where their
trees go agree about every tree. -/
theorem unchanged_spec :
    (∀ root : Node,
      (root.rewrite.2.isUnchanged ↔ root.rewrite.1 = root) ∧
      root.rewrite.2.elementsChanged ≤ root.rewrite.2.elementsVisited ∧
      (root.rewrite.2.isUnchanged →
        root.rewrite.2.directivesRewritten = 0 ∧ root.rewrite.2.bindingsRewritten = 0)) ∧
    (∀ host request store report, prepare host request store = .ok report →
      ∃ settings, Run.settings store request = .ok settings ∧
        ∀ file ∈ report.files, file ∉ pendingFiles request report →
          ∃ text node, store.readText file.source = .ok text ∧ Node.parse text = .ok node ∧
            file.content = node.print (treeLayout settings request)) ∧
    ∀ (host host' : Host) (request : Request) (store : Store) (directory : Path)
      (inPlace outDir : Report),
      prepare host { request with outDir := none, inPlace := true } store = .ok inPlace →
      prepare host' { request with outDir := some directory, inPlace := false } store =
        .ok outDir →
      inPlace.files.map RewrittenFile.outcome = outDir.files.map RewrittenFile.outcome := by
  refine ⟨?_, ?_, ?_⟩
  · intro root
    refine ⟨?_, elementsChanged_le root, ?_⟩
    · rw [isUnchanged_iff, Node.rewrite_eq]
    · intro hunchanged
      rw [Node.rewrite_snd_of_isUnchanged hunchanged]
      exact ⟨rfl, rfl⟩
  · intro host request store report h
    obtain ⟨settings, selected, targets, h⟩ := prepared_of_prepare h
    exact ⟨settings, h.settings_eq, fun file hfile hskip => h.skipped hfile hskip⟩
  · intro host host' request store directory inPlace outDir h h'
    refine outcomes_eq ?_ ?_ ?_ ?_ h h' <;> rfl

end FlexFold.Run
