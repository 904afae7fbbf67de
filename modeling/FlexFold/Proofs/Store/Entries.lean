import FlexFold.Proofs.FirstSeen
import FlexFold.Store.Write

/-!
What stands where after an entry was put or removed.
-/

namespace FlexFold

namespace Store

variable {store : Store} {location : Location} {entry : Entry}

theorem entry?_put (h : location ≠ []) (x : Location) :
    Store.entry? (store.put location entry) x =
      if x = location then some entry else store.entry? x := by
  unfold entry?
  by_cases hroot : x = []
  · rw [if_pos hroot, if_neg (fun e : x = location => h (e.symm.trans hroot)), if_pos hroot]
  · rw [if_neg hroot, if_neg hroot]
    exact FirstSeen.get?_insert ..

theorem entry?_remove (h : location ≠ []) (x : Location) :
    Store.entry? (store.remove location) x = if x = location then none else store.entry? x := by
  unfold entry?
  by_cases hroot : x = []
  · rw [if_pos hroot, if_neg (fun e : x = location => h (e.symm.trans hroot)), if_pos hroot]
  · rw [if_neg hroot, if_neg hroot]
    exact FirstSeen.get?_erase ..

theorem put_eq_self (hroot : location ≠ []) (h : store.entry? location = some entry) :
    store.put location entry = store := by
  unfold entry? at h
  rw [if_neg hroot] at h
  rw [put, FirstSeen.insert_eq_self h]

end Store

end FlexFold
