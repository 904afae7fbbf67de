import FlexFold.Proofs.Store.Place

/-!
Ways: the links that a path goes over and the location where it ends. What is no link counts as a
directory here, whether or not it is there yet, so the way is known before the directories on it
are made. A path still leads where it led as long as the links on its way stay.
-/

namespace FlexFold.Store

variable {store origin later : Store} {links left : Nat} {here there location : Location}
  {name : String} {target path : Path} {steps rest : List Stride} {entry : Entry}

/-! ### Ways -/

structure Way where
  /-- The links on the way. -/
  crossed : List Location
  /-- Where the way ends. -/
  location : Location
deriving DecidableEq, Repr

/-- A way that begins with a link. -/
def Way.over (link : Location) (way : Way) : Way :=
  { way with crossed := link :: way.crossed }

/-- Take some steps as if everything but a link were a directory, and go on with `jump` at a
link. -/
def wayWith (store : Store) (jump : Location → List Stride → Option Way) :
    Location → List Stride → Option Way
  | here, [] => some ⟨[], here⟩
  | here, .stay :: rest => wayWith store jump here rest
  | here, .up :: rest => wayWith store jump here.dropLast rest
  | here, .down name :: rest =>
      match store.entry? (here ++ [name]) with
      | some (.link target) =>
          (jump (if target.isAbsolute then [] else here) (strides target ++ rest)).map
            (Way.over (here ++ [name]))
      | _ => wayWith store jump (here ++ [name]) rest

/-- Take some steps over at most `links` links as if everything else were a directory. -/
def way (store : Store) : (links : Nat) → Location → List Stride → Option Way
  | 0 => wayWith store fun _ _ => none
  | links + 1 => wayWith store (way store links)

/-- The way to what a path leads to. -/
def wayTo? (store : Store) (path : Path) : Option Way :=
  store.way maxLinks (store.start path) (strides path)

/-- The way to the directory where the last name of a path stands. -/
def wayAbove? (store : Store) (path : Path) : Option Way :=
  store.way maxLinks (store.start path) (strides path).dropLast

/-- The location that the last name of a path has. -/
def place? (store : Store) (path : Path) : Option Location :=
  match (strides path).getLast? with
  | some (.down name) => (store.wayAbove? path).map fun way => way.location ++ [name]
  | _ => none

/-- The links on the way to the directory where the last name of a path stands. -/
def crossedAbove (store : Store) (path : Path) : List Location :=
  match store.wayAbove? path with
  | some way => way.crossed
  | none => []

/-- The links on the way to what a path leads to, and where it stands. -/
def crossedTo (store : Store) (path : Path) : List Location :=
  match store.wayTo? path with
  | some way => way.location :: way.crossed
  | none => []

/-- Whether a link bears the last name of a path. -/
def bearsLink (store : Store) (path : Path) : Bool :=
  match (store.place? path).bind store.entry? with
  | some (.link _) => true
  | _ => false

/-- No link on the way to the second path has the place of the first one. -/
def Avoids (store : Store) (path other : Path) : Prop :=
  ∀ x ∈ store.crossedAbove other, store.place? path ≠ some x

instance (store : Store) (path other : Path) : Decidable (store.Avoids path other) :=
  inferInstanceAs (Decidable (∀ x ∈ store.crossedAbove other, store.place? path ≠ some x))

theorem ne_link_of_bearsLink (h : store.bearsLink path = false)
    (hplace : store.place? path = some location) : store.entry? location ≠ some (.link target) := by
  intro hlink
  simp [bearsLink, hplace, hlink] at h

theorem way_nil : store.way links here [] = some ⟨[], here⟩ := by
  cases links <;> rfl

theorem way_stay : store.way links here (.stay :: rest) = store.way links here rest := by
  cases links <;> rfl

theorem way_up : store.way links here (.up :: rest) = store.way links here.dropLast rest := by
  cases links <;> rfl

theorem way_down (h : ∀ target, store.entry? (here ++ [name]) ≠ some (.link target)) :
    store.way links here (.down name :: rest) = store.way links (here ++ [name]) rest := by
  have hstep : ∀ jump, store.wayWith jump here (.down name :: rest) =
      store.wayWith jump (here ++ [name]) rest := by
    intro jump
    rw [wayWith]
    split
    · rename_i target htarget
      exact absurd htarget (h target)
    · rfl
  cases links <;> exact hstep _

theorem way_link (h : store.entry? (here ++ [name]) = some (.link target)) :
    store.way (links + 1) here (.down name :: rest) =
      (store.way links (if target.isAbsolute then [] else here) (strides target ++ rest)).map
        (Way.over (here ++ [name])) := by
  rw [way, wayWith, h]

/-! ### Stores that grow -/

/-- What a store has become after directories were made and files were written: directories are
still there, and links are too or were replaced by files. -/
structure Grown (origin store : Store) : Prop where
  workingDirectory : store.workingDirectory = origin.workingDirectory
  directory : ∀ x, origin.entry? x = some .directory → store.entry? x = some .directory
  link : ∀ x target, store.entry? x = some (.link target) → origin.entry? x = some (.link target)
  replaced : ∀ x target, origin.entry? x = some (.link target) →
    store.entry? x = some (.link target) ∨ ∃ bytes, store.entry? x = some (.file bytes)

theorem Grown.refl (store : Store) : Grown store store :=
  ⟨rfl, fun _ h => h, fun _ _ h => h, fun _ _ h => .inl h⟩

theorem Grown.not_link (h : Grown origin store) {x : Location}
    (hentry : store.entry? x = some .directory) (target : Path) :
    origin.entry? x ≠ some (.link target) := by
  intro hlink
  rcases h.replaced x target hlink with hstill | ⟨bytes, hfile⟩ <;> simp_all

theorem Grown.start_eq (h : Grown origin store) (path : Path) :
    store.start path = origin.start path := by
  rw [start, start, h.workingDirectory]

/-! ### Stores that keep a way -/

/-- A later store with all directories and some of the links. -/
structure Keeps (store later : Store) (links : List Location) : Prop where
  workingDirectory : later.workingDirectory = store.workingDirectory
  directory : ∀ x, store.entry? x = some .directory → later.entry? x = some .directory
  link : ∀ x ∈ links, ∀ target, store.entry? x = some (.link target) →
    later.entry? x = some (.link target)

theorem Keeps.start_eq {links : List Location} (h : Keeps store later links) (path : Path) :
    later.start path = store.start path := by
  rw [start, start, h.workingDirectory]

theorem Keeps.tail {link : Location} {links : List Location}
    (h : Keeps store later (link :: links)) : Keeps store later links :=
  ⟨h.workingDirectory, h.directory, fun x hx => h.link x (List.mem_cons_of_mem link hx)⟩

/-- Where a link leads from. -/
def linkBase (link : Location) (target : Path) : Location :=
  if target.isAbsolute then [] else link.dropLast

theorem linkBase_concat (here : Location) (name : String) (target : Path) :
    linkBase (here ++ [name]) target = if target.isAbsolute then [] else here := by
  rw [linkBase, List.dropLast_concat]

/-- Steps that lead through directories now take the way that was known from the beginning, and
they lead there as long as the links on that way stay. Each of these links leads on. -/
theorem Leads.exists_way (hgrown : Grown origin store)
    (h : Leads store links here steps left there) :
    ∃ crossed, origin.way links here steps = some ⟨crossed, there⟩ ∧
      (∀ {later}, Keeps store later crossed → Leads later links here steps left there) ∧
      ∀ x ∈ crossed, ∃ target k rest, store.entry? x = some (.link target) ∧
        Leads store k (linkBase x target) (strides target ++ rest) left there := by
  induction h with
  | done => exact ⟨[], way_nil, fun _ => .done _ _, by simp⟩
  | stay _ ih =>
      obtain ⟨crossed, hway, hkeep, hlinks⟩ := ih
      exact ⟨crossed, way_stay.trans hway, fun hkeeps => .stay (hkeep hkeeps), hlinks⟩
  | up _ ih =>
      obtain ⟨crossed, hway, hkeep, hlinks⟩ := ih
      exact ⟨crossed, way_up.trans hway, fun hkeeps => .up (hkeep hkeeps), hlinks⟩
  | enter hname hentry _ ih =>
      obtain ⟨crossed, hway, hkeep, hlinks⟩ := ih
      refine ⟨crossed, (way_down (hgrown.not_link hentry)).trans hway, fun hkeeps => ?_, hlinks⟩
      exact .enter hname (hkeeps.directory _ hentry) (hkeep hkeeps)
  | @jump links left here there name target rest hname hentry hleads ih =>
      obtain ⟨crossed, hway, hkeep, hlinks⟩ := ih
      refine ⟨(here ++ [name]) :: crossed, ?_, fun hkeeps => ?_,
        List.forall_mem_cons.mpr ⟨?_, hlinks⟩⟩
      · rw [way_link (hgrown.link _ _ hentry), hway]
        rfl
      · exact .jump hname (hkeeps.link _ List.mem_cons_self target hentry) (hkeep hkeeps.tail)
      · exact ⟨target, links, rest, hentry, (linkBase_concat here name target).symm ▸ hleads⟩

theorem Stands.exists_way (hgrown : Grown origin store) (h : Stands store path location) :
    ∃ way, origin.wayAbove? path = some way ∧ origin.place? path = some location ∧
      (∀ {later}, Keeps store later way.crossed → Stands later path location) ∧
      ∀ x ∈ way.crossed, ∃ target k rest left there, store.entry? x = some (.link target) ∧
        Leads store k (linkBase x target) (strides target ++ rest) left there := by
  cases h with
  | @intro before name left there hcheck hstrides hname hleads =>
      rw [hgrown.start_eq] at hleads
      obtain ⟨crossed, hway, hkeep, hlinks⟩ := hleads.exists_way hgrown
      have habove : origin.wayAbove? path = some ⟨crossed, there⟩ := by
        rw [wayAbove?, hstrides, List.dropLast_concat, hway]
      refine ⟨_, habove, by simp [place?, hstrides, habove], fun hkeeps => ?_, fun x hx => ?_⟩
      · have hlater := hkeep hkeeps
        rw [← hgrown.start_eq, ← hkeeps.start_eq] at hlater
        exact .intro hcheck hstrides hname hlater
      · obtain ⟨target, k, rest, hlink⟩ := hlinks x hx
        exact ⟨target, k, rest, left, there, hlink⟩

theorem Stands.place?_eq (hgrown : Grown origin store) (h : Stands store path location) :
    origin.place? path = some location := by
  obtain ⟨_, -, hplace, -⟩ := h.exists_way hgrown
  exact hplace

/-- A walk to a file takes the way of its path, and it leads there as long as the links on that
way and the file stay. Each of these links leads on. -/
theorem Arrives.exists_way {bytes : ByteArray}
    (h : Arrives store true links here steps (.entry location (.file bytes))) :
    ∃ crossed, store.way links here steps = some ⟨crossed, location⟩ ∧
      (∀ {later}, Keeps store later crossed →
        later.entry? location = some (.file bytes) →
        Arrives later true links here steps (.entry location (.file bytes))) ∧
      ∀ x ∈ crossed, ∃ target k rest, store.entry? x = some (.link target) ∧
        Arrives store true k (linkBase x target) (strides target ++ rest)
          (.entry location (.file bytes)) := by
  generalize hfollow : true = follow at h ⊢
  generalize hspot : Spot.entry location (.file bytes) = spot at h ⊢
  induction h with
  | here => simp at hspot
  | free => simp at hspot
  | link _ hnot => simp [← hfollow] at hnot
  | file links hname hentry =>
      obtain ⟨rfl, hfile⟩ := Spot.entry.inj hspot
      obtain rfl := Entry.file.inj hfile
      refine ⟨[], (way_down (by simp [hentry])).trans way_nil, fun _ hlater => ?_, by simp⟩
      exact .file links hname hlater
  | stay _ ih =>
      obtain ⟨crossed, hway, hkeep, hlinks⟩ := ih hspot
      exact ⟨crossed, way_stay.trans hway, fun hkeeps hlater => .stay (hkeep hkeeps hlater), hlinks⟩
  | up _ ih =>
      obtain ⟨crossed, hway, hkeep, hlinks⟩ := ih hspot
      exact ⟨crossed, way_up.trans hway, fun hkeeps hlater => .up (hkeep hkeeps hlater), hlinks⟩
  | enter hname hentry _ ih =>
      obtain ⟨crossed, hway, hkeep, hlinks⟩ := ih hspot
      refine ⟨crossed, (way_down (by simp [hentry])).trans hway, fun hkeeps hlater => ?_, hlinks⟩
      exact .enter hname (hkeeps.directory _ hentry) (hkeep hkeeps hlater)
  | @jump links here name target rest spot hgo hname hentry harrives ih =>
      obtain ⟨crossed, hway, hkeep, hlinks⟩ := ih hspot
      refine ⟨(here ++ [name]) :: crossed, ?_, fun hkeeps hlater => ?_,
        List.forall_mem_cons.mpr ⟨?_, hlinks⟩⟩
      · rw [way_link hentry, hway]
        rfl
      · exact .jump hgo hname (hkeeps.link _ List.mem_cons_self target hentry)
          (hkeep hkeeps.tail hlater)
      · exact ⟨target, links, rest, hentry, (linkBase_concat here name target).symm ▸ harrives⟩

/-! ### Links to files -/

/-- Steps that arrive at a file lead through no directories. -/
theorem Arrives.not_leads {k : Nat} {bytes : ByteArray}
    (h : Arrives store true links here steps (.entry location (.file bytes))) :
    ¬ Leads store k here (steps ++ rest) left there := by
  generalize hfollow : true = follow at h
  generalize hspot : Spot.entry location (.file bytes) = spot at h
  intro hleads
  induction h generalizing k rest with
  | here => simp at hspot
  | free => simp at hspot
  | link _ hnot => simp [← hfollow] at hnot
  | file _ _ hentry => cases hleads <;> simp_all
  | stay _ ih =>
      cases hleads with
      | stay hleads => exact ih hspot hleads
  | up _ ih =>
      cases hleads with
      | up hleads => exact ih hspot hleads
  | enter _ hentry _ ih =>
      cases hleads with
      | enter _ _ hleads => exact ih hspot hleads
      | jump _ hlink => simp [hentry] at hlink
  | jump _ _ hentry _ ih =>
      rw [List.cons_append] at hleads
      cases hleads with
      | enter _ hdirectory => simp [hentry] at hdirectory
      | jump _ hlink hleads =>
          obtain rfl := Entry.link.inj (Option.some.inj (hentry.symm.trans hlink))
          rw [← List.append_assoc] at hleads
          exact ih hspot hleads

/-- Where the link at a place leads. -/
theorem Stands.arrives_of_link {bytes : ByteArray} {x : Location} (h : Stands store path x)
    (hlink : store.entry? x = some (.link target))
    (hlocate : store.locate true path = .ok (.entry location (.file bytes))) :
    ∃ k, Arrives store true k (linkBase x target) (strides target)
      (.entry location (.file bytes)) := by
  cases h with
  | @intro before name left there _ hstrides _ hleads =>
      have harrives := (locate_eq_ok_iff.mp hlocate).2
      rw [arrives_iff, hstrides, hleads.walk_append (by simp), ← arrives_iff] at harrives
      cases harrives with
      | enter _ hentry => simp [hlink] at hentry
      | file _ _ hentry => simp [hlink] at hentry
      | @jump k _ _ _ _ _ _ _ hentry harrives =>
          obtain rfl := Entry.link.inj (Option.some.inj (hlink.symm.trans hentry))
          rw [List.append_nil, ← linkBase_concat there name target] at harrives
          exact ⟨k, harrives⟩

/-- A path that leads to a file is on no way to a directory. -/
theorem Stands.not_crossed {other : Path} {x : Location} {bytes : ByteArray}
    (h : Stands store path x)
    (hlocate : store.locate true path = .ok (.entry location (.file bytes)))
    (hother : Stands store other there) : x ∉ store.crossedAbove other := by
  intro hx
  obtain ⟨way, habove, -, -, hlinks⟩ := hother.exists_way (.refl store)
  rw [crossedAbove, habove] at hx
  obtain ⟨target, k, rest, left, there, hlink, hleads⟩ := hlinks x hx
  obtain ⟨_, harrives⟩ := h.arrives_of_link hlink hlocate
  exact harrives.not_leads hleads

/-- A path that leads to a file is on the way to another file only if it leads to that one. -/
theorem Stands.locate_of_crossed {other : Path} {x : Location} {bytes bytes' : ByteArray}
    (h : Stands store path x)
    (hlocate : store.locate true path = .ok (.entry location (.file bytes)))
    (hother : store.locate true other = .ok (.entry there (.file bytes')))
    (hx : x ∈ store.crossedTo other) :
    store.locate true path = store.locate true other := by
  have harrives := (locate_eq_ok_iff.mp hother).2
  obtain ⟨crossed, hway, -, hlinks⟩ := harrives.exists_way
  rw [crossedTo, wayTo?, hway] at hx
  rcases List.mem_cons.mp hx with rfl | hx
  · have hentry := harrives.entry?_eq
    rw [h.locate (.inr (by simp [hentry])), spotAt, hentry, hother]
  · obtain ⟨target, k, rest, hlink, hon⟩ := hlinks x hx
    obtain ⟨_, harrives⟩ := h.arrives_of_link hlink hlocate
    by_cases hrest : rest = []
    · rw [hrest, List.append_nil] at hon
      rw [hlocate, hother, harrives.unique hon]
    · obtain ⟨left, there, hleads, -⟩ := hon.exists_leads hrest
      rw [← List.append_nil (strides target)] at hleads
      exact absurd hleads harrives.not_leads

end FlexFold.Store
