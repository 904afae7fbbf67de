import FlexFold.Proofs.Store.Walk
import FlexFold.Store.Write

/-!
Where the last name of a path stands. The walk before that name has to lead to a directory; what
the path then leads to depends on nothing but the entry that bears the name.
-/

namespace FlexFold.Store

variable {store : Store} {follow : Bool} {path : Path} {location : Location} {spot : Spot}
  {entry : Entry}

/-- A walk that follows links ends at no link. -/
theorem Arrives.ne_link {links : Nat} {here : Location} {steps : List Stride} {target : Path}
    (h : Arrives store true links here steps (.entry location entry)) :
    entry ≠ .link target := by
  generalize hfollow : true = follow at h
  generalize hspot : Spot.entry location entry = spot at h
  induction h with
  | here | file =>
      cases hspot
      simp
  | free => cases hspot
  | link _ hnot => simp [← hfollow] at hnot
  | stay _ ih | up _ ih | enter _ _ _ ih | jump _ _ _ _ ih => exact ih hspot

theorem Arrives.entry?_eq {links : Nat} {here : Location} {steps : List Stride}
    {bytes : ByteArray} (h : Arrives store true links here steps (.entry location (.file bytes))) :
    store.entry? location = some (.file bytes) := by
  generalize hfollow : true = follow at h
  generalize hspot : Spot.entry location (.file bytes) = spot at h
  induction h with
  | here | free => simp at hspot
  | link _ hnot => simp [← hfollow] at hnot
  | file _ _ hentry =>
      obtain ⟨rfl, hfile⟩ := Spot.entry.inj hspot
      rw [hentry, hfile]
  | stay _ ih | up _ ih | enter _ _ _ ih | jump _ _ _ _ ih => exact ih hspot

theorem locate_eq_ok_iff :
    store.locate follow path = .ok spot ↔
      checkPath path = .ok () ∧
        Arrives store follow maxLinks (store.start path) (strides path) spot := by
  rw [arrives_iff, locate]
  cases checkPath path with
  | error fault => simp
  | ok => simp

theorem find?_eq_some_iff :
    store.find? follow path = some (location, entry) ↔
      store.locate follow path = .ok (.entry location entry) := by
  unfold find?
  split
  · rename_i found what hlocate
    simp [hlocate]
  · rename_i hlocate
    simp only [reduceCtorEq, false_iff]
    exact hlocate location entry

theorem ne_link_of_locate {target : Path}
    (h : store.locate true path = .ok (.entry location entry)) : entry ≠ .link target := by
  exact (locate_eq_ok_iff.mp h).2.ne_link

/-- The last name of a path stands at a location: the steps before it lead to the directory. -/
inductive Stands (store : Store) (path : Path) : Location → Prop where
  | intro {before : List Stride} {name : String} {left : Nat} {there : Location}
      (hcheck : checkPath path = .ok ()) (hstrides : strides path = before ++ [.down name])
      (hname : ¬ nameLimit ≤ name.utf8ByteSize)
      (hleads : Leads store maxLinks (store.start path) before left there) :
      Stands store path (there ++ [name])

theorem Stands.ne_nil (h : Stands store path location) : location ≠ [] := by
  cases h
  simp

/-- What a walk that goes no further finds at a location. -/
def spotAt (store : Store) (location : Location) : Spot :=
  match store.entry? location with
  | none => .free location
  | some entry => .entry location entry

theorem Stands.locate (h : Stands store path location)
    (hlink : follow = false ∨ ∀ target, store.entry? location ≠ some (.link target)) :
    store.locate follow path = .ok (store.spotAt location) := by
  cases h with
  | @intro before name left there hcheck hstrides hname hleads =>
      rw [locate_eq_ok_iff]
      refine ⟨hcheck, ?_⟩
      rw [arrives_iff, hstrides, hleads.walk_append (by simp), walk_down hname, spotAt]
      cases hentry : store.entry? (there ++ [name]) with
      | none => rfl
      | some entry =>
          cases entry with
          | directory => exact walk_nil
          | file bytes => rfl
          | link target =>
              have hfollow : follow = false := hlink.resolve_right (by simp [hentry])
              simp [hfollow]

/-- A path that leads to anything but a directory has a last name. -/
theorem exists_stands (h : store.locate follow path = .ok spot)
    (hspot : ∀ location, spot ≠ .entry location .directory) :
    ∃ location, Stands store path location := by
  obtain ⟨hcheck, h⟩ := locate_eq_ok_iff.mp h
  rcases List.eq_nil_or_concat (strides path) with hnil | ⟨before, last, hstrides⟩
  · rw [hnil] at h
    cases h
    exact absurd rfl (hspot _)
  · rw [List.concat_eq_append] at hstrides
    rw [hstrides] at h
    obtain ⟨left, there, hleads, hlast⟩ := h.exists_leads (by simp)
    cases last with
    | stay | up =>
        cases hlast with
        | _ hlast =>
            cases hlast
            exact absurd rfl (hspot _)
    | down name =>
        have hname : ¬ nameLimit ≤ name.utf8ByteSize := by
          cases hlast <;> assumption
        exact ⟨_, .intro hcheck hstrides hname hleads⟩

/-- Paths of which the last names stand at the same location lead to the same spot. -/
theorem Stands.locate_unique {other : Path} {spot' : Spot} (h : Stands store path location)
    (h' : Stands store other location) (hspot : store.locate follow path = .ok spot)
    (hspot' : store.locate follow other = .ok spot') : spot = spot' := by
  have harrives := (locate_eq_ok_iff.mp hspot).2
  have harrives' := (locate_eq_ok_iff.mp hspot').2
  generalize hsame : location = same at h'
  cases h with
  | @intro before name left there _ hstrides _ hleads =>
      cases h' with
      | @intro before' name' left' there' _ hstrides' _ hleads' =>
          obtain ⟨rfl, hname⟩ := List.append_inj' hsame rfl
          obtain rfl := List.head_eq_of_cons_eq hname
          rw [arrives_iff, hstrides, hleads.walk_append (by simp), ← arrives_iff] at harrives
          rw [arrives_iff, hstrides', hleads'.walk_append (by simp), ← arrives_iff] at harrives'
          exact harrives.unique harrives'

/-- What a path reads depends only on the file it leads to. -/
theorem readText_of_locate {bytes : ByteArray}
    (h : store.locate true path = .ok (.entry location (.file bytes))) :
    store.readText path = (Text.decode bytes).mapError fun _ => .noText := by
  rw [readText, h]
  dsimp only
  cases Text.decode bytes <;> rfl

end FlexFold.Store
