import FlexFold.Proofs.Glob.Matching
import FlexFold.Proofs.Glob.Reached

/-!
What a search leads to. A path that is found is spelled as its names are, one after the other, and
the components of the pattern cover these names, unless the pattern has empty components or begins
with one that leads back to where the search begins.
-/

namespace FlexFold

namespace Store

/-- A store in which the last part of every location is a name. -/
def IsWellNamed (store : Store) : Prop :=
  ∀ location ∈ store.entries.keys, ∀ name ∈ location.getLast?, Path.IsName name

instance (store : Store) : Decidable store.IsWellNamed :=
  inferInstanceAs (Decidable (∀ _ ∈ _, _))

theorem IsWellNamed.isName {store : Store} {location : Location} {name : String}
    (h : store.IsWellNamed) (hname : name ∈ store.names location) : Path.IsName name := by
  unfold names at hname
  rw [List.mem_mergeSort, List.mem_filterMap] at hname
  obtain ⟨found, hfound, hname⟩ := hname
  split at hname
  · rename_i last hlast
    split at hname
    · obtain rfl := Option.some.inj hname
      exact h found hfound _ hlast
    · simp at hname
  · simp at hname

end Store

namespace Glob

variable {store : Store} {refusals : Refusals} {path directory : Path} {name : String}
  {front : List Char} {p : Pattern} {components rest : List Pattern} {directoriesOnly : Bool}

/-! ### Where a search leads -/

/-- A path that is spelled as names are that some components cover, and that leads to no file if
only directories are asked for. -/
structure Follows (store : Store) (directoriesOnly : Bool) (front : List Char)
    (components : List Pattern) (path : Path) : Prop where
  spelled : ∃ names, Covers components names ∧ path.text.toList = front ++ spelling names
  directory : directoriesOnly → store.LeadsToNoFile path

/-- A place from which a search for some components goes on as they are spelled: either somewhere
below the start, or the start itself if the first component does not lead back there. -/
def Departs (here : Path) (components : List Pattern) : Prop :=
  Settled here ∨ ∀ p ∈ components.head?, p.literal? = some ".." ∨ hiddenNames p = []

theorem eq_map_char_of_mapM {tokens : List Token} {cs : List Char}
    (h : tokens.mapM Token.char? = some cs) : tokens = cs.map .char := by
  induction tokens generalizing cs with
  | nil =>
      obtain rfl : [] = cs := Option.some.inj h
      rfl
  | cons token tokens ih =>
      simp only [List.mapM_cons, bind, Option.bind_eq_some_iff, pure, Option.some.injEq] at h
      obtain ⟨c, hc, cs, hcs, rfl⟩ := h
      cases token with
      | char d =>
          obtain rfl := Option.some.inj hc
          rw [ih hcs, List.map_cons]
      | _ => simp [Token.char?] at hc

theorem tokens_of_literal (h : p.literal? = some name) : p.tokens = name.toList.map .char := by
  obtain ⟨cs, hcs, rfl⟩ := Option.map_eq_some_iff.mp h
  rw [String.toList_ofList]
  exact eq_map_char_of_mapM hcs

theorem mem_hiddenNames_iff :
    name ∈ hiddenNames p ↔ (name = ".." ∨ name = ".") ∧
      p.tokens.head? = some (.char '.') ∧ p.matchesText name := by
  unfold hiddenNames
  split
  · rename_i hhead
    simp [hhead]
  · rename_i hhead
    simp [hhead]

/-- A component that stands for itself leads to its own name. -/
theorem finds_of_literal (hp : p.IsComponent) (hne : p.tokens ≠ [])
    (hliteral : p.literal? = some name) : p.Finds name := by
  have htokens := tokens_of_literal hliteral
  have hmatched : p.matchesText name := by
    rw [Pattern.matchesText, htokens]
    exact matchTokens_char _
  refine ⟨hmatched, ?_, ?_, ?_⟩
  · intro hnil
    simp [htokens, hnil] at hne
  · intro hslash
    exact hp.no_slash (htokens ▸ List.mem_map_of_mem hslash)
  · rintro rfl
    exact mem_hiddenNames_iff.mpr ⟨.inr rfl, by simp [htokens], hmatched⟩

theorem finds_of_hidden (h : name ∈ hiddenNames p) : p.Finds name := by
  obtain ⟨hname, -, hmatched⟩ := mem_hiddenNames_iff.mp h
  refine ⟨hmatched, ?_, ?_, fun e => e ▸ h⟩
  all_goals rcases hname with rfl | rfl <;> decide

theorem finds_of_isName (hname : Path.IsName name) (hmatched : p.matchesText name) :
    p.Finds name :=
  ⟨hmatched, hname.ne_nil, hname.no_slash, fun e => absurd (congrArg String.toList e) hname.ne_dot⟩

theorem finds_of_recursive (hp : p.IsComponent) (hrecursive : p.isRecursive)
    (hname : Path.IsName name) : p.Finds name := by
  refine finds_of_isName hname ?_
  rw [Pattern.matchesText, hp.alone (by simpa [Pattern.isRecursive] using hrecursive)]
  exact matchTokens_anyComponents _

theorem Follows.mono (h : Follows store directoriesOnly front components path)
    (hcovers : ∀ names, Covers components names → Covers rest names) :
    Follows store directoriesOnly front rest path := by
  obtain ⟨names, hnames, hpath⟩ := h.spelled
  exact ⟨⟨names, hcovers names hnames, hpath⟩, h.directory⟩

theorem Follows.skip (h : Follows store directoriesOnly front rest path)
    (hrecursive : p.isRecursive) : Follows store directoriesOnly front (p :: rest) path :=
  h.mono fun _ => .skip hrecursive

/-- What is spelled below a name is spelled from the directory on with that name in front. -/
theorem Follows.below (h : Follows store directoriesOnly (lead directory) components path)
    (hne : name.toList ≠ []) (hslash : '/' ∉ name.toList) (hstart : isStart directory = false)
    (htext : directory.text.toList = front ++ name.toList)
    (hcovers : ∀ names, Covers components names → Covers rest (name :: names)) :
    Follows store directoriesOnly front rest path := by
  obtain ⟨names, hnames, hpath⟩ := h.spelled
  refine ⟨⟨name :: names, hcovers names hnames, ?_⟩, h.directory⟩
  rw [hpath, lead_of_toList hstart hne hslash htext, spelling_cons name hnames.ne_nil.2]
  simp

theorem Follows.next (h : Follows store directoriesOnly (lead directory) rest path)
    (hfinds : p.Finds name) (hstart : isStart directory = false)
    (htext : directory.text.toList = front ++ name.toList) :
    Follows store directoriesOnly front (p :: rest) path :=
  h.below hfinds.ne_nil hfinds.no_slash hstart htext fun _ => .next hfinds

theorem Follows.deeper (h : Follows store directoriesOnly (lead directory) (p :: rest) path)
    (hrecursive : p.isRecursive) (hfinds : p.Finds name) (hstart : isStart directory = false)
    (htext : directory.text.toList = front ++ name.toList) :
    Follows store directoriesOnly front (p :: rest) path :=
  h.below hfinds.ne_nil hfinds.no_slash hstart htext fun _ => .deeper hrecursive hfinds

/-- A path that a component leads to, where nothing is left of the pattern. -/
theorem follows_last {here : Reached} (hfinds : p.Finds name) (hhonest : here.IsHonest store)
    (htext : here.path.text.toList = front ++ name.toList)
    (hdirectory : directoriesOnly → here.isDirectory) :
    Follows store directoriesOnly front [p] here.path := by
  refine ⟨⟨[name], .last hfinds, ?_⟩, fun honly => hhonest (hdirectory honly)⟩
  rw [spelling_singleton, htext]

theorem eq_of_selected {depth : Nat} {here : Reached}
    (h : .ok path ∈ run store refusals directoriesOnly depth (.selected here)) :
    path = here.path ∧ (directoriesOnly → here.isDirectory) := by
  have hrun : run store refusals directoriesOnly depth (.selected here) =
      if directoriesOnly && !here.isDirectory then [] else [.ok here.path] := by
    cases depth <;> rw [run]
  rw [hrun] at h
  split at h
  · simp at h
  · rename_i hdirectory
    refine ⟨Except.ok.inj (List.mem_singleton.mp h), fun honly => ?_⟩
    simpa [honly] using hdirectory

/-- How a search goes on at a path that a component leads to. -/
def onward (store : Store) (refusals : Refusals) (rest : List Pattern) (next : Path) : List Task :=
  if rest.isEmpty then [.selected (reach store next)]
  else search store refusals rest (reach store next)

theorem mem_onward_of_literal {here : Reached} {task : Task} (hliteral : p.literal? = some name)
    (h : task ∈ search store refusals (p :: rest) here) :
    task ∈ onward store refusals rest (child here.path name) := by
  rw [search] at h
  simp only [hliteral] at h
  split at h
  · split at h
    · exact h
    · simp at h
  · split at h
    · exact h
    · simp at h

theorem mem_search_of_wild {here : Reached} {task : Task} (hwild : p.literal? = none)
    (h : task ∈ search store refusals (p :: rest) here) :
    (∃ e, task = .failed e) ∨
      (∃ name ∈ hiddenNames p, task ∈ onward store refusals rest (here.path.join name)) ∨
      ∃ location, store.locate true here.path = .ok (.entry location .directory) ∧
        ∃ name ∈ store.names location,
          task = .pending (reachChild store here.path location name) (p :: rest) := by
  rw [search] at h
  simp only [hwild] at h
  split at h
  · split at h
    · rename_i e _
      exact .inl ⟨e, List.mem_singleton.mp h⟩
    · rename_i found hfound
      right
      rcases List.mem_append.mp h with h | h
      · exact .inl (List.mem_flatMap.mp h)
      · obtain ⟨entry, hentry, rfl⟩ := List.mem_map.mp h
        unfold entries at hfound
        split at hfound
        case h_2 location _ hlocate =>
          obtain rfl := Except.ok.inj hfound
          obtain ⟨name, hname, rfl⟩ := List.mem_map.mp hentry
          exact .inr ⟨location, hlocate, name, hname, rfl⟩
        all_goals simp at hfound
  · simp at h

/-- What a search selects is what its components cover, if that is so for what is pending. -/
theorem follows_of_search {depth : Nat} {here : Reached} {task : Task}
    (hnames : store.IsWellNamed)
    (hpending : ∀ (directory : Path) (name : String) (here : Reached) (components : List Pattern),
      Path.IsName name → here.path.text.toList = lead directory ++ name.toList →
      here.IsHonest store → (∀ p ∈ components, p.IsComponent ∧ p.tokens ≠ []) →
      .ok path ∈ run store refusals directoriesOnly depth (.pending here components) →
      Follows store directoriesOnly (lead directory) components path)
    (hcomponents : ∀ p ∈ components, p.IsComponent ∧ p.tokens ≠ [])
    (hdeparts : Departs here.path components)
    (htask : task ∈ search store refusals components here)
    (h : .ok path ∈ run store refusals directoriesOnly depth task) :
    Follows store directoriesOnly (lead here.path) components path := by
  induction components generalizing here with
  | nil => simp [search] at htask
  | cons p rest ih =>
      obtain ⟨hp, hrest⟩ := List.forall_mem_cons.mp hcomponents
      have honward {name : String} {next : Path} (hfinds : p.Finds name)
          (hnext : next.text.toList = lead here.path ++ name.toList)
          (hdot : name = "." → Settled here.path)
          (hgo : task ∈ onward store refusals rest next) :
          Follows store directoriesOnly (lead here.path) (p :: rest) path := by
        unfold onward at hgo
        split at hgo
        · rename_i hempty
          obtain rfl := List.isEmpty_iff.mp hempty
          obtain rfl := List.mem_singleton.mp hgo
          obtain ⟨rfl, hdirectory⟩ := eq_of_selected h
          exact follows_last hfinds (isHonest_reach _) hnext hdirectory
        · have hsettled : Settled next := by
            by_cases hcase : name = "."
            · exact (hdot hcase).of_toList hnext
            · exact settled_of_ne_dot hfinds.ne_nil hfinds.no_slash hcase hnext
          have hdeparts : Departs (reach store next).path rest := .inl hsettled
          have hfollows := ih hrest hdeparts hgo
          exact hfollows.next hfinds hsettled.isStart_eq_false hnext
      -- Where the search has not left its start, the component does not lead back there.
      cases hliteral : p.literal? with
      | some name =>
          have hfinds := finds_of_literal hp.1 hp.2 hliteral
          refine honward hfinds (toList_child hfinds.no_slash) (fun hdot => ?_)
            (mem_onward_of_literal hliteral htask)
          refine hdeparts.resolve_right fun hfirst => ?_
          rcases hfirst p rfl with hdots | hnone
          · simp [hliteral, hdot] at hdots
          · have hhidden := hfinds.hidden hdot
            simp [hnone] at hhidden
      | none =>
          rcases mem_search_of_wild hliteral htask with ⟨e, rfl⟩ | ⟨name, hname, htask⟩ |
            ⟨location, hlocate, name, hname, rfl⟩
          · cases depth <;> simp [run] at h
          · have hfinds := finds_of_hidden hname
            have hsettled : Settled here.path := by
              refine hdeparts.resolve_right fun hfirst => ?_
              rcases hfirst p rfl with hdots | hnone
              · simp [hliteral] at hdots
              · simp [hnone] at hname
            exact honward hfinds (toList_join hsettled.isStart_eq_false hfinds.no_slash)
              (fun _ => hsettled) htask
          · have hname := hnames.isName hname
            have htext : (reachChild store here.path location name).path.text.toList =
                lead here.path ++ name.toList := toList_child hname.no_slash
            exact hpending here.path name _ (p :: rest) hname htext
              (isHonest_reachChild hname hlocate) hcomponents h

/-! ### Where a run leads -/

theorem exists_of_dropRepeated {last : Pattern} {after : List Pattern}
    (hrecursive : p.isRecursive) (h : dropRepeated (p :: rest) = last :: after) :
    last.isRecursive ∧ (∀ q ∈ last :: after, q ∈ p :: rest) ∧
      ∀ names, Covers (last :: after) names → Covers (p :: rest) names := by
  induction rest generalizing p with
  | nil =>
      obtain ⟨rfl, rfl⟩ := List.cons.inj h
      exact ⟨hrecursive, fun q hq => hq, fun names hcovers => hcovers⟩
  | cons q rest ih =>
      rw [dropRepeated] at h
      split at h
      · rename_i hq
        obtain ⟨hlast, hmem, hcovers⟩ := ih hq h
        exact ⟨hlast, fun q hq => List.mem_cons_of_mem p (hmem q hq),
          fun names hnames => .skip hrecursive (hcovers names hnames)⟩
      · obtain ⟨rfl, rfl⟩ := List.cons.inj h
        exact ⟨hrecursive, fun q hq => hq, fun names hcovers => hcovers⟩

/-- What a run selects after so many more levels of a search. -/
def below (store : Store) (refusals : Refusals) (directoriesOnly : Bool) (depth : Nat)
    (components : List Pattern) (here : Reached) : List (Except GlobError Path) :=
  (search store refusals components here).flatMap (run store refusals directoriesOnly depth)

/-- What a run selects if the first component matches a name, if there is one. -/
def matchedAt (store : Store) (refusals : Refusals) (directoriesOnly : Bool) (depth : Nat)
    (components : List Pattern) (here : Reached) (name : Option String) :
    List (Except GlobError Path) :=
  match components, name with
  | p :: rest, some name =>
      if p.matchesText name then
        if rest.isEmpty then
          if directoriesOnly && !here.isDirectory then [] else [.ok here.path]
        else below store refusals directoriesOnly depth rest here
      else []
  | _, _ => []

/-- What a run selects where `**` comes first: at the name what comes after it, and below the name
all of them again. -/
def repeatedAt (store : Store) (refusals : Refusals) (directoriesOnly : Bool) (depth : Nat)
    (last : Pattern) (after : List Pattern) (here : Reached) (name : Option String) :
    List (Except GlobError Path) :=
  if here.isDirectory then
    if after.isEmpty then .ok here.path :: below store refusals directoriesOnly depth [last] here
    else
      matchedAt store refusals directoriesOnly depth after here name ++
        below store refusals directoriesOnly depth (last :: after) here
  else matchedAt store refusals directoriesOnly depth after here name

theorem run_pending {depth : Nat} {here : Reached} :
    run store refusals directoriesOnly (depth + 1) (.pending here (p :: rest)) =
      if p.isRecursive then
        match dropRepeated (p :: rest) with
        | [] => []
        | last :: after =>
            repeatedAt store refusals directoriesOnly depth last after here here.path.fileName?
      else
        matchedAt store refusals directoriesOnly depth (p :: rest) here here.path.fileName? := by
  rw [run.eq_def]
  dsimp only
  cases dropRepeated (p :: rest) with
  | nil => cases here.path.fileName? <;> rfl
  | cons last after => cases after <;> cases here.path.fileName? <;> rfl

/-- What a run selects at a name is what its components cover, if that is so for all below. -/
theorem follows_of_matchedAt {depth : Nat} {here : Reached}
    (hname : Path.IsName name) (hsettled : Settled here.path) (hhonest : here.IsHonest store)
    (htext : here.path.text.toList = front ++ name.toList)
    (hbelow : ∀ rest, (∀ p ∈ rest, p ∈ components) →
      .ok path ∈ below store refusals directoriesOnly depth rest here →
      Follows store directoriesOnly (lead here.path) rest path)
    (h : .ok path ∈ matchedAt store refusals directoriesOnly depth components here (some name)) :
    Follows store directoriesOnly front components path := by
  cases components with
  | nil => simp [matchedAt] at h
  | cons p rest =>
      rw [matchedAt] at h
      split at h
      · rename_i hmatched
        have hfinds := finds_of_isName hname hmatched
        split at h
        · rename_i hempty
          obtain rfl := List.isEmpty_iff.mp hempty
          split at h
          · simp at h
          · rename_i hdirectory
            obtain rfl := Except.ok.inj (List.mem_singleton.mp h)
            exact follows_last hfinds hhonest htext fun honly => by simpa [honly] using hdirectory
        · have hfollows := hbelow rest (fun q hq => List.mem_cons_of_mem p hq) h
          exact hfollows.next hfinds hsettled.isStart_eq_false htext
      · simp at h

theorem follows_of_repeatedAt {depth : Nat} {here : Reached} {last : Pattern}
    {after : List Pattern} (hname : Path.IsName name) (hsettled : Settled here.path)
    (hhonest : here.IsHonest store) (htext : here.path.text.toList = front ++ name.toList)
    (hlast : last.isRecursive) (hfinds : last.Finds name)
    (hbelow : ∀ rest, (∀ p ∈ rest, p ∈ last :: after) →
      .ok path ∈ below store refusals directoriesOnly depth rest here →
      Follows store directoriesOnly (lead here.path) rest path)
    (h : .ok path ∈ repeatedAt store refusals directoriesOnly depth last after here (some name)) :
    Follows store directoriesOnly front (last :: after) path := by
  have hskip
      (h : .ok path ∈ matchedAt store refusals directoriesOnly depth after here (some name)) :
      Follows store directoriesOnly front (last :: after) path := by
    refine .skip ?_ hlast
    exact follows_of_matchedAt hname hsettled hhonest htext
      (fun rest hrest => hbelow rest fun q hq => List.mem_cons_of_mem last (hrest q hq)) h
  have hdeeper (h : .ok path ∈ below store refusals directoriesOnly depth (last :: after) here) :
      Follows store directoriesOnly front (last :: after) path :=
    (hbelow _ (fun q hq => hq) h).deeper hlast hfinds hsettled.isStart_eq_false htext
  unfold repeatedAt at h
  split at h
  · rename_i hdirectory
    split at h
    · rename_i hempty
      obtain rfl := List.isEmpty_iff.mp hempty
      rcases List.mem_cons.mp h with hpath | h
      · obtain rfl := Except.ok.inj hpath
        exact follows_last hfinds hhonest htext fun _ => hdirectory
      · exact hdeeper h
    · exact (List.mem_append.mp h).elim hskip hdeeper
  · exact hskip h

theorem follows_of_pending {depth : Nat} {here : Reached}
    (hnames : store.IsWellNamed) (hname : Path.IsName name)
    (htext : here.path.text.toList = lead directory ++ name.toList)
    (hhonest : here.IsHonest store)
    (hcomponents : ∀ p ∈ components, p.IsComponent ∧ p.tokens ≠ [])
    (h : .ok path ∈ run store refusals directoriesOnly depth (.pending here components)) :
    Follows store directoriesOnly (lead directory) components path := by
  induction depth generalizing here directory name components with
  | zero => simp [run] at h
  | succ depth ih =>
      have hsettled : Settled here.path :=
        settled_of_ne_dot hname.ne_nil hname.no_slash
          (fun e => hname.ne_dot (congrArg String.toList e)) htext
      have hbelow : ∀ rest, (∀ p ∈ rest, p ∈ components) →
          .ok path ∈ below store refusals directoriesOnly depth rest here →
          Follows store directoriesOnly (lead here.path) rest path := by
        intro rest hrest h
        obtain ⟨task, htask, h⟩ := List.mem_flatMap.mp h
        have hdeparts : Departs here.path rest := .inl hsettled
        exact follows_of_search hnames (fun _ _ _ _ => ih)
          (fun p hp => hcomponents p (hrest p hp)) hdeparts htask h
      cases components with
      | nil => simp [run] at h
      | cons p rest =>
          rw [run_pending, fileName?_of_toList hname htext] at h
          split at h
          · rename_i hrecursive
            cases hrest : dropRepeated (p :: rest) with
            | nil => simp [hrest] at h
            | cons last after =>
                obtain ⟨hlast, hmem, hcovers⟩ := exists_of_dropRepeated hrecursive hrest
                have hmemLast := hmem last List.mem_cons_self
                have hfinds := finds_of_recursive (hcomponents last hmemLast).1 hlast hname
                simp only [hrest] at h
                refine Follows.mono ?_ hcovers
                exact follows_of_repeatedAt hname hsettled hhonest htext hlast hfinds
                  (fun rest hrest => hbelow rest fun q hq => hmem q (hrest q hq)) h
          · exact follows_of_matchedAt hname hsettled hhonest htext hbelow h

/-! ### Where a pattern leads -/

/-- A pattern that spells the paths it leads to: no component is empty, and the first one does not
lead back to where the search begins. -/
def IsFaithful (glob : Glob) : Prop :=
  (∀ p ∈ glob.components, p.tokens ≠ []) ∧
    (glob.isAbsolute = false →
      ∀ p ∈ glob.components.head?, p.literal? = some ".." ∨ hiddenNames p = [])

instance (glob : Glob) : Decidable glob.IsFaithful :=
  inferInstanceAs (Decidable (_ ∧ _))

/-- The paths that a pattern leads to are spelled as its components cover them. -/
theorem follows_of_mem_paths {glob : Glob} (hnames : store.IsWellNamed)
    (hcomponents : ∀ p ∈ glob.components, p.IsComponent) (hfaithful : glob.IsFaithful)
    (h : .ok path ∈ glob.paths store refusals) :
    Follows store glob.directoriesOnly (if glob.isAbsolute then ['/'] else []) glob.components
      path := by
  obtain ⟨task, htask, h⟩ := List.mem_flatMap.mp h
  have hboth : ∀ p ∈ glob.components, p.IsComponent ∧ p.tokens ≠ [] :=
    fun p hp => ⟨hcomponents p hp, hfaithful.1 p hp⟩
  have hfollows {here : Reached} (hdeparts : Departs here.path glob.components)
      (htask : task ∈ search store refusals glob.components here) :
      Follows store glob.directoriesOnly (lead here.path) glob.components path := by
    refine follows_of_search hnames ?_ hboth hdeparts htask h
    intro _ _ _ _ hname htext hhonest hcomponents
    exact follows_of_pending hnames hname htext hhonest hcomponents
  cases habsolute : glob.isAbsolute with
  | true =>
      rw [habsolute, if_pos rfl] at htask
      have hdeparts : Departs (reach store ⟨"/"⟩).path glob.components :=
        .inl (.inl (by decide : Path.isAbsolute ⟨"/"⟩ = true))
      have hlead : lead (reach store ⟨"/"⟩).path = ['/'] := (by decide : lead ⟨"/"⟩ = ['/'])
      have hfound := hfollows hdeparts htask
      rwa [hlead] at hfound
  | false =>
      rw [habsolute, if_neg Bool.false_ne_true] at htask
      have hdeparts : Departs (reach store ⟨"."⟩).path glob.components :=
        .inr (hfaithful.2 habsolute)
      have hlead : lead (reach store ⟨"."⟩).path = [] := (by decide : lead ⟨"."⟩ = [])
      have hfound := hfollows hdeparts htask
      rwa [hlead] at hfound

end Glob

end FlexFold
