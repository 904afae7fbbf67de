/-!
Computations that may fail: when a sequence of them succeeds.
-/

namespace FlexFold.Attempt

variable {ε ε' α β : Type}

theorem ok_of_toOption {r : Except ε α} {a : α} (h : r.toOption = some a) : r = .ok a := by
  cases r with
  | error e => cases h
  | ok b => exact congrArg Except.ok (Option.some.inj h)

theorem mem_of_toOption {rs : List (Except ε α)} {a : α}
    (h : some a ∈ rs.map Except.toOption) : .ok a ∈ rs := by
  obtain ⟨r, hr, hsome⟩ := List.mem_map.mp h
  rwa [ok_of_toOption hsome] at hr

theorem bind_eq_ok_iff {x : Except ε α} {f : α → Except ε β} {b : β} :
    x >>= f = .ok b ↔ ∃ a, x = .ok a ∧ f a = .ok b := by
  cases x with
  | error e => simp [bind, Except.bind]
  | ok a => simp [bind, Except.bind]

theorem mapError_ok (f : ε → ε') (a : α) : (Except.ok a : Except ε α).mapError f = .ok a := rfl

theorem mapError_eq_ok_iff {x : Except ε α} {f : ε → ε'} {a : α} :
    x.mapError f = .ok a ↔ x = .ok a := by
  cases x with
  | error e =>
      change Except.error (f e) = Except.ok a ↔ _
      simp
  | ok b =>
      change Except.ok b = Except.ok a ↔ _
      simp

theorem map_eq_ok_iff {x : Except ε α} {f : α → β} {b : β} :
    x.map f = .ok b ↔ ∃ a, x = .ok a ∧ f a = b := by
  cases x <;> simp [Except.map]

theorem map_succeeds_iff {x : Except ε α} {f : α → β} :
    (∃ b, x.map f = .ok b) ↔ ∃ a, x = .ok a := by
  cases x <;> simp [Except.map]

/-- A list of computations succeeds with the list of what each of them returns. -/
theorem mapM_eq_ok_iff {f : α → Except ε β} {as : List α} {bs : List β} :
    as.mapM f = .ok bs ↔ as.map f = bs.map .ok := by
  induction as generalizing bs with
  | nil => cases bs <;> simp [pure, Except.pure]
  | cons a as ih =>
      rw [List.mapM_cons, bind_eq_ok_iff]
      constructor
      · rintro ⟨b, hb, hbind⟩
        obtain ⟨rest, hrest, hpure⟩ := bind_eq_ok_iff.mp hbind
        obtain rfl : b :: rest = bs := Except.ok.inj hpure
        rw [List.map_cons, List.map_cons, hb, ih.mp hrest]
      · intro h
        cases bs with
        | nil => simp at h
        | cons b rest =>
            obtain ⟨hb, hrest⟩ := List.cons.inj h
            exact ⟨b, hb, bind_eq_ok_iff.mpr ⟨rest, ih.mpr hrest, rfl⟩⟩

/-- What a list of computations returns is what some of them return. -/
theorem mem_iff_of_mapM_eq_ok {f : α → Except ε β} {as : List α} {bs : List β}
    (h : as.mapM f = .ok bs) (b : β) : b ∈ bs ↔ ∃ a ∈ as, f a = .ok b := by
  rw [← List.mem_map, mapM_eq_ok_iff.mp h, List.mem_map]
  simp

/-- Results that say what they came from. -/
theorem map_eq_of_map_eq_ok {f : α → Except ε β} {g : β → α} {as : List α} {bs : List β}
    (h : as.map f = bs.map .ok) (hg : ∀ a b, f a = .ok b → g b = a) : bs.map g = as := by
  induction as generalizing bs with
  | nil => simpa using h
  | cons a as ih =>
      cases bs with
      | nil => simp at h
      | cons b bs =>
          obtain ⟨hb, hrest⟩ := List.cons.inj h
          rw [List.map_cons, hg a b hb, ih hrest]

theorem mapM_succeeds_iff {f : α → Except ε β} {as : List α} :
    (∃ bs, as.mapM f = .ok bs) ↔ ∀ a ∈ as, ∃ b, f a = .ok b := by
  induction as with
  | nil => simp [pure, Except.pure]
  | cons a as ih =>
      simp only [List.mapM_cons, bind_eq_ok_iff, List.forall_mem_cons, ← ih]
      constructor
      · rintro ⟨_, b, hb, rest, hrest, -⟩
        exact ⟨⟨b, hb⟩, rest, hrest⟩
      · rintro ⟨⟨b, hb⟩, rest, hrest⟩
        exact ⟨_, b, hb, rest, hrest, rfl⟩

end FlexFold.Attempt
