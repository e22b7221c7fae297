import Mathlib.Tactic.Common
import Mathlib.Data.List.Nodup
import Mathlib.Data.List.TakeWhile

/-!
# Dictionaries that remember the order of insertion

Setting a key that is there changes its value in place. A new key goes to the end.
-/

namespace Lib

variable {α β : Type} [DecidableEq α] {k j : α} {v : β} {as bs : List (α × β)}

def lookup (k : α) : List (α × β) → Option β
  | [] => none
  | (k', v) :: rest => if k' = k then some v else lookup k rest

def setEntry (k : α) (v : β) : List (α × β) → List (α × β)
  | [] => [(k, v)]
  | (k', v') :: rest => if k' = k then (k, v) :: rest else (k', v') :: setEntry k v rest

/-- The value that a list of assignments leaves a key with. -/
def lastOf (k : α) : List (α × β) → Option β
  | [] => none
  | (k', v) :: rest => (lastOf k rest).or (if k' = k then some v else none)

/-! ## Lists of entries -/

theorem lookup_setEntry : lookup j (setEntry k v as) = if j = k then some v else lookup j as := by
  induction as with
  | nil => simp only [setEntry, lookup, eq_comm]
  | cons entry rest ih =>
    obtain ⟨k', v'⟩ := entry
    simp only [setEntry]
    by_cases hk : k' = k
    · subst hk
      rw [if_pos rfl]
      by_cases hj : k' = j
      · simp [lookup, hj]
      · simp [lookup, hj, Ne.symm hj]
    · rw [if_neg hk]
      by_cases hj : k' = j
      · subst hj
        simp [lookup, hk]
      · simp [lookup, hj, ih]

theorem keys_setEntry : (setEntry k v as).map Prod.fst =
    if k ∈ as.map Prod.fst then as.map Prod.fst else as.map Prod.fst ++ [k] := by
  induction as with
  | nil => rfl
  | cons entry rest ih =>
    obtain ⟨k', v'⟩ := entry
    simp only [setEntry]
    by_cases hk : k' = k
    · simp [hk]
    · rw [if_neg hk, List.map_cons, ih]
      simp only [List.map_cons, List.mem_cons, Ne.symm hk, false_or]
      split <;> rfl

theorem mem_setEntry {kv : α × β} (h : kv ∈ setEntry k v as) : kv = (k, v) ∨ kv ∈ as := by
  induction as with
  | nil => exact .inl (List.mem_singleton.mp h)
  | cons entry rest ih =>
    obtain ⟨k', v'⟩ := entry
    unfold setEntry at h
    split at h
    · rcases List.mem_cons.mp h with h | h
      · exact .inl h
      · exact .inr (List.mem_cons_of_mem _ h)
    · rcases List.mem_cons.mp h with h | h
      · exact .inr (List.mem_cons.mpr (.inl h))
      · exact (ih h).imp_right (List.mem_cons_of_mem _)

theorem nodup_setEntry (h : (as.map Prod.fst).Nodup) : ((setEntry k v as).map Prod.fst).Nodup := by
  rw [keys_setEntry]
  split
  · exact h
  · rename_i hk
    rw [List.nodup_append]
    refine ⟨h, List.nodup_singleton k, ?_⟩
    rintro a ha b hb rfl
    exact hk (List.mem_singleton.mp hb ▸ ha)

theorem lookup_eq_none : lookup k as = none ↔ k ∉ as.map Prod.fst := by
  induction as with
  | nil => simp [lookup]
  | cons entry rest ih =>
    simp only [lookup, List.map_cons, List.mem_cons, not_or]
    split
    · rename_i hk
      simp [hk]
    · rename_i hk
      rw [ih]
      exact ⟨fun h => ⟨Ne.symm hk, h⟩, fun h => h.2⟩

theorem mem_of_lookup (h : lookup k as = some v) : (k, v) ∈ as := by
  induction as with
  | nil => cases h
  | cons entry rest ih =>
    simp only [lookup] at h
    split at h
    · rename_i hk
      cases h
      exact hk ▸ List.mem_cons_self
    · exact List.mem_cons_of_mem _ (ih h)

theorem lookup_of_mem (hnodup : (as.map Prod.fst).Nodup) (h : (k, v) ∈ as) : lookup k as = some v := by
  induction as with
  | nil => cases h
  | cons entry rest ih =>
    rw [List.map_cons, List.nodup_cons] at hnodup
    rcases List.mem_cons.mp h with rfl | h
    · simp [lookup]
    · have hne : entry.1 ≠ k := by
        intro hk
        rw [hk] at hnodup
        exact hnodup.1 (List.mem_map.mpr ⟨_, h, rfl⟩)
      rw [lookup, if_neg hne]
      exact ih hnodup.2 h

theorem lookup_filter (p : α → Bool) : lookup k (as.filter fun kv => p kv.1) = if p k then lookup k as else none := by
  induction as with
  | nil => simp [lookup]
  | cons entry rest ih =>
    obtain ⟨k', v'⟩ := entry
    by_cases hk : k' = k
    · subst hk
      cases hp : p k' <;> simp [hp, lookup] at ih ⊢
      exact ih
    · cases hp : p k' <;> simp [hp, lookup, hk, ih]

theorem lastOf_append : lastOf k (as ++ bs) = (lastOf k bs).or (lastOf k as) := by
  induction as with
  | nil => simp [lastOf]
  | cons entry rest ih => simp only [List.cons_append, lastOf, ih, Option.or_assoc]

theorem lastOf_eq_none : lastOf k as = none ↔ k ∉ as.map Prod.fst := by
  induction as with
  | nil => simp [lastOf]
  | cons entry rest ih =>
    simp only [lastOf, Option.or_eq_none_iff, ih, List.map_cons, List.mem_cons, not_or]
    constructor
    · rintro ⟨hrest, hk⟩
      refine ⟨?_, hrest⟩
      rintro rfl
      simp at hk
    · rintro ⟨hk, hrest⟩
      exact ⟨hrest, if_neg (Ne.symm hk)⟩

theorem lastOf_eq_lookup (hnodup : (as.map Prod.fst).Nodup) : lastOf k as = lookup k as := by
  induction as with
  | nil => rfl
  | cons entry rest ih =>
    rw [List.map_cons, List.nodup_cons] at hnodup
    rw [lastOf, lookup, ih hnodup.2]
    split
    · rename_i hk
      rw [lookup_eq_none.mpr (hk ▸ hnodup.1), Option.none_or]
    · rw [Option.or_none]

/-- When each entry assigns no key but its own, a key is left with what its own entry assigns. -/
theorem lastOf_flatMap {γ : Type} {f : α × β → List (α × γ)} (hnodup : (as.map Prod.fst).Nodup)
    (hown : ∀ kv ∈ as, ∀ j ∈ (f kv).map Prod.fst, j = kv.1) :
    lastOf k (as.flatMap f) = (lookup k as).bind fun v => lastOf k (f (k, v)) := by
  induction as with
  | nil => rfl
  | cons entry rest ih =>
    rw [List.map_cons, List.nodup_cons] at hnodup
    rw [List.flatMap_cons, lastOf_append, ih hnodup.2 fun kv hkv => hown kv (List.mem_cons_of_mem _ hkv), lookup]
    by_cases hk : entry.1 = k
    · rw [if_pos hk, lookup_eq_none.mpr (hk ▸ hnodup.1), ← hk]
      rfl
    · have hnone : lastOf k (f entry) = none := by
        rw [lastOf_eq_none]
        intro hmem
        exact hk (hown entry List.mem_cons_self k hmem).symm
      rw [if_neg hk, hnone, Option.or_none]

theorem mem_of_lastOf (h : lastOf k as = some v) : (k, v) ∈ as := by
  induction as with
  | nil => cases h
  | cons entry rest ih =>
    simp only [lastOf] at h
    rcases Option.or_eq_some_iff.mp h with h | ⟨-, h⟩
    · exact List.mem_cons_of_mem _ (ih h)
    · split at h
      · rename_i hk
        cases h
        exact hk ▸ List.mem_cons_self
      · cases h

theorem foldl_setEntry_same (hk : k ∉ as.map Prod.fst) {cs : List (α × β)} (hcs : ∀ j ∈ cs.map Prod.fst, j = k) (w : Option β) :
    cs.foldl (fun bs kv => setEntry kv.1 kv.2 bs) (as ++ (w.map fun v => (k, v)).toList)
      = as ++ (((lastOf k cs).or w).map fun v => (k, v)).toList := by
  induction cs generalizing w with
  | nil => rfl
  | cons entry rest ih =>
    obtain ⟨k', v'⟩ := entry
    have hk' : k' = k := hcs k' List.mem_cons_self
    subst hk'
    have hset : ∀ bs : List (α × β), k' ∉ bs.map Prod.fst →
        setEntry k' v' (bs ++ (w.map fun v => (k', v)).toList) = bs ++ [(k', v')] := by
      intro bs hbs
      induction bs with
      | nil => cases w <;> simp [setEntry]
      | cons b bs ihbs =>
        rw [List.map_cons, List.mem_cons, not_or] at hbs
        rw [List.cons_append, setEntry, if_neg (Ne.symm hbs.1), ihbs hbs.2, List.cons_append]
    have hrest := ih (fun j hj => hcs j (List.mem_cons_of_mem _ hj)) (some v')
    rw [List.foldl_cons, hset as hk, lastOf, if_pos rfl]
    simpa [Option.or_assoc] using hrest

theorem foldl_setEntry_flatMap {γ : Type} {f : α × β → List (α × γ)} {bs : List (α × γ)} (hnodup : (as.map Prod.fst).Nodup)
    (hown : ∀ kv ∈ as, ∀ j ∈ (f kv).map Prod.fst, j = kv.1) (hbs : ∀ kv ∈ as, kv.1 ∉ bs.map Prod.fst) :
    (as.flatMap f).foldl (fun bs kv => setEntry kv.1 kv.2 bs) bs
      = bs ++ as.filterMap fun kv => (lastOf kv.1 (f kv)).map fun w => (kv.1, w) := by
  induction as generalizing bs with
  | nil => simp
  | cons kv rest ih =>
    rw [List.map_cons, List.nodup_cons] at hnodup
    have hfirst := foldl_setEntry_same (hbs kv List.mem_cons_self) (hown kv List.mem_cons_self) none
    simp only [Option.map_none, Option.toList_none, List.append_nil, Option.or_none] at hfirst
    rw [List.flatMap_cons, List.foldl_append, hfirst, ih hnodup.2 fun kv' h => hown kv' (List.mem_cons_of_mem _ h)]
    · rw [List.filterMap_cons]
      cases lastOf kv.1 (f kv) <;> simp
    · intro kv' hkv' hmem
      rw [List.map_append, List.mem_append] at hmem
      rcases hmem with hmem | hmem
      · exact hbs kv' (List.mem_cons_of_mem _ hkv') hmem
      · have hkey : kv'.1 = kv.1 := by
          cases hlast : lastOf kv.1 (f kv) with
          | none => simp [hlast] at hmem
          | some w => simpa [hlast] using hmem
        exact hnodup.1 (hkey ▸ List.mem_map.mpr ⟨kv', hkv', rfl⟩)

/-- The entries from the first one of the key on, or all of them when it has none. -/
def fromKey (k : α) (as : List (α × β)) : List (α × β) :=
  match as.dropWhile fun kv => kv.1 ≠ k with
  | [] => as
  | own => own

theorem fromKey_of_notMem (h : k ∉ as.map Prod.fst) : fromKey k as = as := by
  have hdrop : as.dropWhile (fun kv => decide (kv.1 ≠ k)) = [] := by
    rw [List.dropWhile_eq_nil_iff]
    intro kv hkv
    rw [decide_eq_true_eq]
    rintro rfl
    exact h (List.mem_map_of_mem hkv)
  rw [fromKey, hdrop]

theorem fromKey_append (h : k ∉ as.map Prod.fst) : fromKey k (as ++ (k, v) :: bs) = (k, v) :: bs := by
  have hdrop : (as ++ (k, v) :: bs).dropWhile (fun kv => decide (kv.1 ≠ k)) = (k, v) :: bs := by
    rw [List.dropWhile_append_of_pos]
    · exact List.dropWhile_cons_of_neg (by simp)
    · intro kv hkv
      rw [decide_eq_true_eq]
      rintro rfl
      exact h (List.mem_map_of_mem hkv)
  rw [fromKey, hdrop]

theorem lastOf_flatMap_cons_of_notMem {γ : Type} (f : β → γ) (g : α × β → List (α × γ)) (h : k ∉ as.map Prod.fst) :
    lastOf k (as.flatMap fun kv => (kv.1, f kv.2) :: g kv) = lastOf k (as.flatMap g) := by
  induction as with
  | nil => rfl
  | cons kv rest ih =>
    rw [List.map_cons, List.mem_cons, not_or] at h
    rw [List.flatMap_cons, List.flatMap_cons, lastOf_append, lastOf_append, ih h.2, lastOf, if_neg (Ne.symm h.1),
      Option.or_none]

/-- Each entry assigns its own key first and may assign others behind it. -/
theorem lastOf_flatMap_cons {γ : Type} (hnodup : (as.map Prod.fst).Nodup) (f : β → γ) (g : α × β → List (α × γ)) :
    lastOf k (as.flatMap fun kv => (kv.1, f kv.2) :: g kv)
      = (lastOf k ((fromKey k as).flatMap g)).or ((lookup k as).map f) := by
  cases hlookup : lookup k as with
  | none =>
    have hno := lookup_eq_none.mp hlookup
    rw [lastOf_flatMap_cons_of_notMem f g hno, fromKey_of_notMem hno, Option.map_none, Option.or_none]
  | some v =>
    obtain ⟨before, after, rfl⟩ := List.append_of_mem (mem_of_lookup hlookup)
    rw [List.map_append, List.map_cons, List.nodup_append] at hnodup
    obtain ⟨-, hafter, hdisjoint⟩ := hnodup
    have hbefore : k ∉ before.map Prod.fst := fun hmem => hdisjoint k hmem k List.mem_cons_self rfl
    rw [List.nodup_cons] at hafter
    rw [fromKey_append hbefore, List.flatMap_append, List.flatMap_cons, List.flatMap_cons, lastOf_append, lastOf_append,
      lastOf_append, lastOf_flatMap_cons_of_notMem f g hafter.1, lastOf, if_pos rfl]
    simp

def lastWith (p : α → Bool) (as : List (α × β)) : Option (α × β) := (as.filter fun kv => p kv.1).getLast?

omit [DecidableEq α] in
theorem lastWith_cons {p : α → Bool} {kv : α × β} :
    lastWith p (kv :: as) = (lastWith p as).or (if p kv.1 then some kv else none) := by
  cases hp : p kv.1 with
  | false => simp [lastWith, hp]
  | true => cases hrest : (as.filter fun kv => p kv.1) <;> simp [lastWith, hp, hrest, List.getLast?_cons]

/-- Setting an entry makes it the last one with a property of its key, or leaves the last one as it was. -/
theorem lastWith_setEntry {p : α → Bool} :
    lastWith p (setEntry k v as) = lastWith p as ∨ p k = true ∧ lastWith p (setEntry k v as) = some (k, v) := by
  induction as with
  | nil =>
    rw [setEntry, lastWith_cons]
    cases hp : p k with
    | false => exact .inl rfl
    | true => exact .inr ⟨rfl, rfl⟩
  | cons entry rest ih =>
    simp only [setEntry]
    by_cases hk : entry.1 = k
    · rw [if_pos hk, lastWith_cons, lastWith_cons, hk]
      cases hp : p k with
      | false => exact .inl rfl
      | true =>
        cases lastWith p rest with
        | none => exact .inr ⟨rfl, rfl⟩
        | some kv => exact .inl rfl
    · rw [if_neg hk, lastWith_cons, lastWith_cons]
      rcases ih with h | ⟨hp, h⟩
      · exact .inl (by rw [h])
      · exact .inr ⟨hp, by rw [h, Option.some_or]⟩

omit [DecidableEq α] in
/-- What a name is left with when each entry assigns its value to some names of its key. -/
theorem lastOf_names {γ : Type} [DecidableEq γ] (names : α → List γ) {n : γ} {p : α → Bool}
    (hp : ∀ k, p k = true ↔ n ∈ names k) :
    lastOf n (as.flatMap fun kv => (names kv.1).map fun m => (m, kv.2)) = (lastWith p as).map Prod.snd := by
  have hnames : ∀ (ms : List γ) (v : β), lastOf n (ms.map fun m => (m, v)) = if n ∈ ms then some v else none := by
    intro ms v
    induction ms with
    | nil => simp [lastOf]
    | cons m ms ih =>
      rw [List.map_cons, lastOf, ih]
      by_cases hn : m = n
      · by_cases hms : n ∈ ms <;> simp [hn, hms]
      · by_cases hms : n ∈ ms <;> simp [hn, hms, Ne.symm hn]
  induction as with
  | nil => rfl
  | cons kv rest ih =>
    rw [List.flatMap_cons, lastOf_append, ih, hnames, lastWith_cons]
    simp only [hp]
    cases lastWith p rest with
    | some kv' => rfl
    | none => by_cases hn : n ∈ names kv.1 <;> simp [hn]

omit [DecidableEq α] in
theorem lastWith_filterMap {γ : Type} {p : α → Bool} {f : α × β → Option γ}
    (hf : ∀ kv ∈ as, p kv.1 = true → (f kv).isSome = true) :
    lastWith p (as.filterMap fun kv => (f kv).map fun w => (kv.1, w))
      = (lastWith p as).bind fun kv => (f kv).map fun w => (kv.1, w) := by
  induction as with
  | nil => rfl
  | cons kv rest ih =>
    have ihrest := ih fun kv' hkv' => hf kv' (List.mem_cons_of_mem _ hkv')
    have hsome : ∀ kv', lastWith p rest = some kv' → (f kv').isSome = true := by
      intro kv' hlast
      have hmem := List.mem_filter.mp (List.mem_of_getLast? hlast)
      exact hf kv' (List.mem_cons_of_mem _ hmem.1) hmem.2
    rw [lastWith_cons, List.filterMap_cons]
    cases hp : p kv.1 with
    | false =>
      rw [if_neg (by simp), Option.or_none, ← ihrest]
      cases hfk : f kv with
      | none => rfl
      | some w => simp [lastWith_cons, hp]
    | true =>
      obtain ⟨w, hw⟩ := Option.isSome_iff_exists.mp (hf kv List.mem_cons_self hp)
      rw [if_pos rfl, hw, Option.map_some, lastWith_cons, ihrest]
      cases hlast : lastWith p rest with
      | none => simp [hp, hw]
      | some kv' =>
        obtain ⟨w', hw'⟩ := Option.isSome_iff_exists.mp (hsome kv' hlast)
        simp [hw']

/-! ## Dictionaries -/

structure Dict (α β : Type) where
  entries : List (α × β)
  nodup : (entries.map Prod.fst).Nodup

namespace Dict

variable {d : Dict α β}

def empty : Dict α β := ⟨[], List.nodup_nil⟩

def get? (d : Dict α β) (k : α) : Option β := lookup k d.entries

def set (d : Dict α β) (k : α) (v : β) : Dict α β := ⟨setEntry k v d.entries, nodup_setEntry d.nodup⟩

def update (d : Dict α β) (as : List (α × β)) : Dict α β := as.foldl (fun d kv => d.set kv.1 kv.2) d

def ofList (as : List (α × β)) : Dict α β := empty.update as

/-- `{k: v for k, v in d.items() if p(k)}`. -/
def filter (p : α → Bool) (d : Dict α β) : Dict α β where
  entries := d.entries.filter fun kv => p kv.1
  nodup := d.nodup.sublist (List.filter_sublist.map Prod.fst)

@[simp]
theorem get?_empty : (empty : Dict α β).get? k = none := rfl

@[simp]
theorem get?_set : (d.set k v).get? j = if j = k then some v else d.get? j := lookup_setEntry

@[simp]
theorem get?_filter (p : α → Bool) : (d.filter p).get? k = if p k then d.get? k else none := lookup_filter p

theorem get?_update (as : List (α × β)) : (d.update as).get? k = (lastOf k as).or (d.get? k) := by
  induction as generalizing d with
  | nil => rfl
  | cons entry rest ih =>
    rw [update, List.foldl_cons, ← update, ih, get?_set, lastOf, Option.or_assoc]
    by_cases hk : k = entry.1
    · simp [hk]
    · simp [hk, Ne.symm hk]

theorem set_eq_self (h : d.get? k = some v) : d.set k v = d := by
  have hentries : ∀ as : List (α × β), lookup k as = some v → setEntry k v as = as := by
    intro as has
    induction as with
    | nil => cases has
    | cons entry rest ih =>
      obtain ⟨k', v'⟩ := entry
      simp only [lookup] at has
      simp only [setEntry]
      split at has
      · rename_i hk
        cases has
        rw [if_pos hk, hk]
      · rename_i hk
        rw [if_neg hk, ih has]
  unfold set
  simp only [hentries d.entries h]

theorem update_eq_self {as : List (α × β)} (h : ∀ kv ∈ as, d.get? kv.1 = some kv.2) : d.update as = d := by
  induction as with
  | nil => rfl
  | cons entry rest ih =>
    rw [update, List.foldl_cons, set_eq_self (h entry List.mem_cons_self)]
    exact ih fun kv hkv => h kv (List.mem_cons_of_mem _ hkv)

theorem get?_ofList (as : List (α × β)) : (ofList as).get? k = lastOf k as := by
  rw [ofList, get?_update, get?_empty, Option.or_none]

theorem mem_entries : (k, v) ∈ d.entries ↔ d.get? k = some v :=
  ⟨lookup_of_mem d.nodup, mem_of_lookup⟩

theorem lastOf_entries : lastOf k d.entries = d.get? k := lastOf_eq_lookup d.nodup

theorem entries_update (as : List (α × β)) :
    (d.update as).entries = as.foldl (fun bs kv => setEntry kv.1 kv.2 bs) d.entries := by
  induction as generalizing d with
  | nil => rfl
  | cons entry rest ih => exact ih

theorem mem_update {as : List (α × β)} {kv : α × β} (h : kv ∈ (d.update as).entries) : kv ∈ d.entries ∨ kv ∈ as := by
  rw [mem_entries, get?_update] at h
  cases hlast : lastOf kv.1 as with
  | none =>
    rw [hlast, Option.none_or] at h
    exact .inl (mem_entries.mpr h)
  | some v =>
    rw [hlast, Option.some_or] at h
    obtain rfl := Option.some.inj h
    exact .inr (mem_of_lastOf hlast)

theorem lastWith_update {p : α → Bool} (as : List (α × β)) :
    lastWith p (d.update as).entries = lastWith p d.entries ∨
      ∃ kv ∈ as, p kv.1 = true ∧ lastWith p (d.update as).entries = some kv := by
  induction as generalizing d with
  | nil => exact .inl rfl
  | cons entry rest ih =>
    rcases ih (d := d.set entry.1 entry.2) with h | ⟨kv, hkv, hp, h⟩
    · have hset : lastWith p (d.set entry.1 entry.2).entries = lastWith p d.entries ∨
          p entry.1 = true ∧ lastWith p (d.set entry.1 entry.2).entries = some entry := lastWith_setEntry
      rcases hset with h' | ⟨hp, h'⟩
      · exact .inl (h.trans h')
      · exact .inr ⟨entry, List.mem_cons_self, hp, h.trans h'⟩
    · exact .inr ⟨kv, List.mem_cons_of_mem _ hkv, hp, h⟩

/-- The dictionary of entries that assign only their own keys has them in their order. -/
theorem entries_ofList_flatMap {γ : Type} {f : α × β → List (α × γ)} {as : List (α × β)}
    (hnodup : (as.map Prod.fst).Nodup) (hown : ∀ kv ∈ as, ∀ j ∈ (f kv).map Prod.fst, j = kv.1) :
    (ofList (as.flatMap f)).entries = as.filterMap fun kv => (lastOf kv.1 (f kv)).map fun w => (kv.1, w) := by
  rw [ofList, entries_update]
  exact foldl_setEntry_flatMap hnodup hown (by simp [empty])

theorem ofList_entries (d : Dict α β) : ofList d.entries = d := by
  have hentries := entries_ofList_flatMap (f := fun kv => [kv]) d.nodup (by simp)
  simp only [lastOf, List.flatMap_singleton', if_true, Option.map_some, Option.none_or] at hentries
  obtain ⟨entries, nodup⟩ := d
  rw [Dict.mk.injEq]
  simpa using hentries

end Dict

end Lib
