import FlexFold.Proofs.FirstSeen
import FlexFold.Proofs.Fold.NormalForm
import Mathlib

/-!
What a fold counts. The counters depend on the names of the attributes only, and whatever they
stood at before, the same amounts are added to them.
-/

namespace FlexFold

namespace FirstSeen

variable {κ α : Type} [DecidableEq κ]

/-- An update that adds to the weight of one value adds as much to the weight of all. -/
theorem sum_values_upsert (weight : α → Nat) (map : FirstSeen κ α) (key : κ)
    {f : Option α → α} {n : Nat} (h : ∀ value, weight (f value) = (value.map weight).getD 0 + n) :
    ((map.upsert key f).values.map weight).sum = (map.values.map weight).sum + n := by
  obtain ⟨entries, hnodup⟩ := map
  simp only [upsert, values]
  clear hnodup
  induction entries with
  | nil => simp [upsertEntries, h]
  | cons entry entries ih =>
      obtain ⟨k, value⟩ := entry
      rw [upsertEntries]
      split
      · simp only [List.map_cons, List.sum_cons, h, Option.map_some, Option.getD_some]
        omega
      · simp only [List.map_cons, List.sum_cons, ih]
        omega

end FirstSeen

/-! ### Counting names -/

/-- Count each of some names. -/
def countNames (directives : FirstSeen String Nat) (names : List String) : FirstSeen String Nat :=
  names.foldl (fun directives name => directives.upsert name fun count => count.getD 0 + 1)
    directives

theorem countNames_append (directives : FirstSeen String Nat) (names more : List String) :
    countNames directives (names ++ more) = countNames (countNames directives names) more :=
  List.foldl_append

theorem keys_countNames (directives : FirstSeen String Nat) (names : List String) :
    (countNames directives names).keys = (directives.keys ++ names).eraseDups := by
  have hkeys := FirstSeen.keys_foldl_upsert id (fun _ count => count.getD 0 + 1) names directives
  rwa [List.map_id] at hkeys

theorem get?_countNames (directives : FirstSeen String Nat) (names : List String)
    (name : String) :
    (countNames directives names).get? name =
      if name ∈ names then some ((directives.get? name).getD 0 + names.count name)
      else directives.get? name := by
  induction names generalizing directives with
  | nil => simp [countNames]
  | cons first names ih =>
      have hstep : countNames directives (first :: names) =
          countNames (directives.upsert first fun count => count.getD 0 + 1) names := rfl
      rw [hstep, ih, FirstSeen.get?_upsert]
      by_cases hfirst : name = first
      · subst hfirst
        by_cases hmem : name ∈ names
        · simp [hmem]
          omega
        · simp [hmem, List.count_eq_zero_of_not_mem hmem]
      · simp [hfirst, Ne.symm hfirst]

theorem sum_countNames (directives : FirstSeen String Nat) (names : List String) :
    (countNames directives names).values.sum = directives.values.sum + names.length := by
  induction names generalizing directives with
  | nil => rfl
  | cons name names ih =>
      have hstep : countNames directives (name :: names) =
          countNames (directives.upsert name fun count => count.getD 0 + 1) names := rfl
      have hsum := FirstSeen.sum_values_upsert id directives name
        (f := fun count => count.getD 0 + 1) (n := 1) fun value => by cases value <;> rfl
      simp only [List.map_id] at hsum
      rw [hstep, ih, hsum, List.length_cons]
      omega

/-- Counting on top of what was counted before adds the counts that start from nothing. -/
theorem counts_countNames (directives : FirstSeen String Nat) (names : List String)
    (name : String) :
    ((countNames directives names).get? name).getD 0 =
      (directives.get? name).getD 0 + ((countNames ∅ names).get? name).getD 0 := by
  have hempty : (∅ : FirstSeen String Nat).get? name = none := rfl
  simp only [get?_countNames, hempty]
  split <;> simp

theorem keys_countNames_eq (directives : FirstSeen String Nat) (names : List String) :
    (countNames directives names).keys =
      (directives.keys ++ (countNames ∅ names).keys).eraseDups := by
  have hempty : (countNames ∅ names).keys = names.eraseDups := keys_countNames ∅ names
  rw [hempty, eraseDups_append_eraseDups, keys_countNames]

/-- One record of counters on top of another: every number is added, and names that are new come
last. -/
structure Stats.AddsUp (before amount after : Stats) : Prop where
  elementsVisited : after.elementsVisited = before.elementsVisited + amount.elementsVisited
  directivesRewritten :
    after.directivesRewritten = before.directivesRewritten + amount.directivesRewritten
  bindingsRewritten : after.bindingsRewritten = before.bindingsRewritten + amount.bindingsRewritten
  elementsChanged : after.elementsChanged = before.elementsChanged + amount.elementsChanged
  counts : ∀ name, (after.directives.get? name).getD 0 =
    (before.directives.get? name).getD 0 + (amount.directives.get? name).getD 0
  keys : after.directives.keys = (before.directives.keys ++ amount.directives.keys).eraseDups

namespace Fold

open Markup (Attribute)

/-! ### One fold -/

/-- The names of the directives that disappear, in the order of the attributes. -/
def directiveNames (as : List Attribute) : List String :=
  (as.map Attribute.name).filter (· ∈ plainNames)

/-- The number of bindings that are renamed. -/
def bindingCount (as : List Attribute) : Nat := as.countP fun a => a.name ∈ boundNames

theorem directiveNames_append (as more : List Attribute) :
    directiveNames (as ++ more) = directiveNames as ++ directiveNames more := by
  simp [directiveNames]

theorem bindingCount_append (as more : List Attribute) :
    bindingCount (as ++ more) = bindingCount as + bindingCount more :=
  List.countP_append

/-- One attribute adds to the counters what its name says. -/
theorem tally_eq (stats : Stats) (a : Attribute) :
    tally stats a =
      { stats with
        directivesRewritten := stats.directivesRewritten + (directiveNames [a]).length
        bindingsRewritten := stats.bindingsRewritten + bindingCount [a]
        directives := countNames stats.directives (directiveNames [a]) } := by
  unfold tally
  by_cases hplain : a.name ∈ plainNames
  · have hbound : a.name ∉ boundNames := by
      intro hbound
      have hdisjoint : ∀ name ∈ plainNames, name ∉ boundNames := by decide
      exact hdisjoint a.name hplain hbound
    rw [if_pos ((isConsumed_iff a).mpr hplain)]
    simp [Stats.countDirective, directiveNames, bindingCount, hplain, hbound, countNames]
  · rw [if_neg (mt (isConsumed_iff a).mp hplain)]
    simp only [isSome_renamed?_iff]
    by_cases hbound : a.name ∈ boundNames
    · simp [Stats.countBinding, directiveNames, bindingCount, hplain, hbound, countNames]
    · simp [directiveNames, bindingCount, hplain, hbound, countNames]

theorem foldl_tally (as : List Attribute) (stats : Stats) :
    as.foldl tally stats =
      { stats with
        directivesRewritten := stats.directivesRewritten + (directiveNames as).length
        bindingsRewritten := stats.bindingsRewritten + bindingCount as
        directives := countNames stats.directives (directiveNames as) } := by
  induction as generalizing stats with
  | nil => rfl
  | cons a as ih =>
      have hnames : directiveNames (a :: as) = directiveNames [a] ++ directiveNames as :=
        directiveNames_append [a] as
      have hcount : bindingCount (a :: as) = bindingCount [a] + bindingCount as :=
        bindingCount_append [a] as
      rw [List.foldl_cons, ih, tally_eq, hnames, hcount, List.length_append, countNames_append]
      simp only [Nat.add_assoc]

theorem tally_of_isClass {a : Attribute} (h : a.isClass) (stats : Stats) :
    tally stats a = stats := by
  have hname : a.name = "class" := by
    simpa [Attribute.isClass, Markup.classAttribute] using h
  have hplain : "class" ∉ plainNames := by decide
  have hbound : "class" ∉ boundNames := by decide
  simp [tally_eq, directiveNames, bindingCount, hname, hplain, hbound, countNames]

/-- What a fold counts, in one equation. -/
theorem attributes_snd_eq (as : List Attribute) (stats : Stats) :
    (attributes as stats).2 =
      { stats with
        directivesRewritten := stats.directivesRewritten + (directiveNames as).length
        bindingsRewritten := stats.bindingsRewritten + bindingCount as
        directives := countNames stats.directives (directiveNames as) } := by
  rw [attributes_snd, List.foldl_filter, ← foldl_tally]
  congr 1
  funext stats a
  by_cases h : a.isClass
  · simp [h, tally_of_isClass h]
  · simp [h]

/-- The counters that a fold starts with make no difference to what it adds. -/
theorem addsUp_attributes (as : List Attribute) (stats : Stats) :
    stats.AddsUp (attributes as {}).2 (attributes as stats).2 := by
  rw [attributes_snd_eq, attributes_snd_eq]
  exact
    { elementsVisited := rfl
      directivesRewritten := by simp
      bindingsRewritten := by simp
      elementsChanged := rfl
      counts := counts_countNames stats.directives _
      keys := keys_countNames_eq stats.directives _ }

end Fold

end FlexFold
