import FlexFold.Proofs.Glob.Spelling
import FlexFold.Proofs.Store.Place

/-!
What a search knows of the paths that it reaches. It takes a path for a directory only if the path
does not lead to a file, be it looked up as a whole or found in the listing of a directory.
-/

namespace FlexFold

namespace Store

variable {store : Store} {path : Path} {location : Location} {links : Nat} {here : Location}
  {steps : List Stride}

/-- A path that does not lead to a file. -/
def LeadsToNoFile (store : Store) (path : Path) : Prop :=
  ∀ location bytes, store.find? true path ≠ some (location, .file bytes)

theorem leadsToNoFile_of_isDirectory (h : store.isDirectory path) : store.LeadsToNoFile path := by
  intro location bytes hfind
  simp [isDirectory, hfind] at h

/-- A walk to a directory may stay there. -/
theorem Arrives.stay_after (h : Arrives store true links here steps (.entry location .directory)) :
    Arrives store true links here (steps ++ [.stay]) (.entry location .directory) := by
  generalize hspot : Spot.entry location .directory = spot at h
  induction h with
  | here => exact .stay (.here _ _)
  | stay _ ih => exact .stay (ih hspot)
  | up _ ih => exact .up (ih hspot)
  | enter hname hentry _ ih => exact .enter hname hentry (ih hspot)
  | free | file | link => simp at hspot
  | jump _ hname hentry _ ih =>
      have hrest := ih hspot
      rw [List.append_assoc] at hrest
      exact .jump (.inr rfl) hname hentry hrest

/-- Whoever only stays gets nowhere. -/
theorem Arrives.eq_of_stay {follow : Bool} {spot : Spot}
    (h : Arrives store follow links here steps spot) (hstay : ∀ step ∈ steps, step = .stay) :
    spot = .entry here .directory := by
  induction steps with
  | nil =>
      cases h
      rfl
  | cons step steps ih =>
      obtain ⟨rfl, hsteps⟩ := List.forall_mem_cons.mp hstay
      cases h with
      | stay h => exact ih h hsteps

theorem Arrives.no_file_of_directory {name : String} {follow : Bool} {bytes : ByteArray}
    (hentry : store.entry? (here ++ [name]) = some .directory) :
    ¬ Arrives store follow links here [.down name] (.entry location (.file bytes)) := by
  intro h
  cases h with
  | enter _ _ harrives => cases harrives
  | file _ _ hfile => simp [hentry] at hfile
  | jump _ _ hlink => simp [hentry] at hlink

end Store

namespace Glob

open Store (Stride strides)

variable {store : Store} {path directory : Path} {name : String} {location : Location}

theorem strides_of_name (hname : Path.IsName name) (htext : path.text.toList = name.toList) :
    strides path = [.down name] := by
  have hlast : path.text.toList.getLast? ≠ some '/' :=
    fun e => hname.no_slash (htext ▸ List.mem_of_mem_getLast? e)
  rw [strides, if_neg hlast, Path.pieces, htext, Text.split_of_not_mem hname.no_slash]
  simp [hname.ne_nil, Store.Stride.ofPiece_of_isName hname]

/-- The steps to what is below a directory. -/
theorem strides_of_slash {before : List Char} (hname : Path.IsName name)
    (htext : path.text.toList = before ++ '/' :: name.toList) :
    strides path =
      ((Text.split '/' before).filter (· ≠ [])).map Stride.ofPiece ++ [.down name] := by
  have hlast : path.text.toList.getLast? ≠ some '/' := by
    intro e
    rw [htext, List.getLast?_append, List.getLast?_cons,
      List.getLast?_eq_some_getLast hname.ne_nil] at e
    exact hname.no_slash (Option.some.inj e ▸ List.getLast_mem hname.ne_nil)
  rw [strides, if_neg hlast, Path.pieces, htext, Text.split_append,
    Text.split_of_not_mem hname.no_slash, List.filter_append, List.map_append, List.append_nil]
  simp [hname.ne_nil, Store.Stride.ofPiece_of_isName hname]

/-- A path below a directory begins as the directory does, goes through its steps, and then down. -/
theorem exists_strides_below (hstart : isStart directory = false) (hname : Path.IsName name)
    (htext : path.text.toList = lead directory ++ name.toList) :
    path.isAbsolute = directory.isAbsolute ∧
      ∃ steps, strides path = steps ++ [.down name] ∧
        (strides directory = steps ∨ strides directory = steps ++ [.stay]) := by
  rw [lead, hstart, if_neg Bool.false_ne_true] at htext
  have hsteps {before : List Char} (htext : path.text.toList = before ++ '/' :: name.toList)
      (hsame : strides directory = ((Text.split '/' before).filter (· ≠ [])).map Stride.ofPiece ∨
        strides directory =
          ((Text.split '/' before).filter (· ≠ [])).map Stride.ofPiece ++ [.stay]) :
      ∃ steps, strides path = steps ++ [.down name] ∧
        (strides directory = steps ∨ strides directory = steps ++ [.stay]) :=
    ⟨_, strides_of_slash hname htext, hsame⟩
  have hhead : name.toList.head? ≠ some '/' := fun e => hname.no_slash (List.mem_of_mem_head? e)
  by_cases hnil : directory.text.toList = []
  · rw [if_pos (.inl hnil), hnil, List.nil_append] at htext
    have hstrides : strides directory = [] := by simp [strides, Path.pieces, hnil, Text.split]
    exact ⟨by simp [Path.isAbsolute, htext, hnil, hhead], [], strides_of_name hname htext,
      .inl hstrides⟩
  · by_cases hlast : directory.text.toList.getLast? = some '/'
    · rw [if_pos (.inr hlast)] at htext
      obtain ⟨before, hbefore⟩ := List.getLast?_eq_some_iff.mp hlast
      rw [hbefore, List.append_assoc, List.singleton_append] at htext
      refine ⟨?_, hsteps htext (.inr ?_)⟩
      · rw [Path.isAbsolute, Path.isAbsolute, htext, hbefore]
        cases before <;> rfl
      · rw [strides, if_pos hlast, Path.pieces, hbefore, Text.split_append, List.filter_append]
        simp [Text.split]
    · rw [if_neg (by simp [hnil, hlast]), List.append_assoc, List.singleton_append] at htext
      refine ⟨?_, hsteps htext (.inl ?_)⟩
      · rw [Path.isAbsolute, Path.isAbsolute, htext, List.head?_append]
        cases hcs : directory.text.toList with
        | nil => exact absurd hcs hnil
        | cons c cs => rfl
      · rw [strides, if_neg hlast, Path.pieces, List.append_nil]

/-- What stands below a directory under the name of a directory is no file. -/
theorem leadsToNoFile_below (hstart : isStart directory = false) (hname : Path.IsName name)
    (htext : path.text.toList = lead directory ++ name.toList)
    (hlocate : store.locate true directory = .ok (.entry location .directory))
    (hentry : store.entry? (location ++ [name]) = some .directory) : store.LeadsToNoFile path := by
  intro found bytes hfind
  obtain ⟨-, hfound⟩ := Store.locate_eq_ok_iff.mp (Store.find?_eq_some_iff.mp hfind)
  obtain ⟨-, hdirectory⟩ := Store.locate_eq_ok_iff.mp hlocate
  obtain ⟨habsolute, steps, hsteps, hsame⟩ := exists_strides_below hstart hname htext
  rw [Store.start, habsolute, ← Store.start, hsteps] at hfound
  obtain ⟨left, there, hleads, harrives⟩ := hfound.exists_leads (by simp)
  have hthere : there = location := by
    have hstay : store.Arrives true Store.maxLinks (store.start directory) (steps ++ [.stay])
        (.entry location .directory) := by
      rcases hsame with hsame | hsame
      · rw [← hsame]
        exact hdirectory.stay_after
      · rw [← hsame]
        exact hdirectory
    have hwalk := hstay.walk_eq
    rw [hleads.walk_append (by simp), Store.walk_stay, Store.walk_nil] at hwalk
    exact (Store.Spot.entry.inj (Except.ok.inj hwalk)).1
  rw [hthere] at harrives
  exact Store.Arrives.no_file_of_directory hentry harrives

theorem isAbsolute_of_isStart (hstart : isStart directory) : directory.isAbsolute = false := by
  cases habsolute : directory.isAbsolute with
  | false => rfl
  | true => simp [Settled.isStart_eq_false (.inl habsolute)] at hstart

/-- Where a relative search begins, one only stays. -/
theorem strides_of_isStart (hstart : isStart directory) :
    ∀ step ∈ strides directory, step = .stay := by
  intro step hstep
  rcases List.mem_append.mp hstep with hstep | hstep
  · obtain ⟨piece, hpiece, rfl⟩ := List.mem_map.mp hstep
    obtain ⟨hpiece, hne⟩ := List.mem_filter.mp hpiece
    cases hidle : Path.isIdle piece with
    | false => simp [Settled.isStart_eq_false (.inr ⟨piece, hpiece, hidle⟩)] at hstart
    | true =>
        obtain rfl : piece = ['.'] := by simpa [Path.isIdle, of_decide_eq_true hne] using hidle
        rfl
  · split at hstep
    · exact List.mem_singleton.mp hstep
    · simp at hstep

/-- What stands where a search begins under the name of a directory is no file. -/
theorem leadsToNoFile_of_isStart (hstart : isStart directory) (hname : Path.IsName name)
    (htext : path.text.toList = lead directory ++ name.toList)
    (hlocate : store.locate true directory = .ok (.entry location .directory))
    (hentry : store.entry? (location ++ [name]) = some .directory) : store.LeadsToNoFile path := by
  intro found bytes hfind
  obtain ⟨-, hfound⟩ := Store.locate_eq_ok_iff.mp (Store.find?_eq_some_iff.mp hfind)
  obtain ⟨-, hdirectory⟩ := Store.locate_eq_ok_iff.mp hlocate
  obtain ⟨rfl, -⟩ := Store.Spot.entry.inj (hdirectory.eq_of_stay (strides_of_isStart hstart))
  rw [lead, if_pos hstart, List.nil_append] at htext
  have hrelative : path.isAbsolute = directory.isAbsolute := by
    have hhead : name.toList.head? ≠ some '/' := fun e => hname.no_slash (List.mem_of_mem_head? e)
    rw [isAbsolute_of_isStart hstart, Path.isAbsolute, htext]
    simp [hhead]
  rw [Store.start, hrelative, ← Store.start, strides_of_name hname htext] at hfound
  exact Store.Arrives.no_file_of_directory hentry hfound

/-! ### What a search takes for a directory -/

/-- A path that is taken for a directory only if it leads to no file. -/
def Reached.IsHonest (store : Store) (here : Reached) : Prop :=
  here.isDirectory → store.LeadsToNoFile here.path

theorem isHonest_reach (path : Path) : (reach store path).IsHonest store :=
  Store.leadsToNoFile_of_isDirectory

theorem isHonest_reachChild (hname : Path.IsName name)
    (hlocate : store.locate true directory = .ok (.entry location .directory)) :
    (reachChild store directory location name).IsHonest store := by
  intro hdirectory
  have htext : (reachChild store directory location name).path.text.toList =
      lead directory ++ name.toList := toList_child hname.no_slash
  rw [reachChild] at hdirectory
  dsimp only at hdirectory
  split at hdirectory
  · rename_i hentry
    cases hstart : isStart directory with
    | true => exact leadsToNoFile_of_isStart hstart hname htext hlocate hentry
    | false => exact leadsToNoFile_below hstart hname htext hlocate hentry
  · exact Store.leadsToNoFile_of_isDirectory hdirectory
  · simp at hdirectory

end Glob

end FlexFold
