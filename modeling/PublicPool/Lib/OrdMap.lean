import Mathlib.Data.List.Nodup
import Mathlib.Data.List.Perm.Basic
import Mathlib.Algebra.BigOperators.Group.List.Basic
import Mathlib.Algebra.Order.BigOperators.Group.List

/-!
# `PublicPool.Lib.OrdMap`: maps that keep the order of insertion

An `OrdMap` is a list of key-value pairs whose keys are pairwise distinct, in the order in
which the keys were first set. Setting a key that is already there keeps its place. The
distinctness of the keys is a field of the structure, so every operation below carries its
own proof of it and no later proof has to.

`get?_eq_some_iff` turns a lookup into membership in the list of entries; together with
the `entries` lemma of each operation it is all that the clients use. The sum lemmas
(`sum_modify`, `sum_mapValues_add`) say how an update moves the total of a quantity over
all values.
-/

set_option autoImplicit false

namespace PublicPool.Lib

/-- A finite map that remembers the order in which its keys were first set. -/
structure OrdMap (α β : Type*) where
  /-- The entries, oldest key first. -/
  entries : List (α × β)
  /-- No key occurs twice. -/
  nodup : (entries.map Prod.fst).Nodup

namespace OrdMap

variable {α β γ : Type*}

/-- The map without entries. -/
def empty : OrdMap α β := ⟨[], List.nodup_nil⟩

/-- The keys, oldest first. -/
def keys (m : OrdMap α β) : List α := m.entries.map Prod.fst

/-- The values, oldest key first. -/
def values (m : OrdMap α β) : List β := m.entries.map Prod.snd

/-- The map that sends each of `ks` to its value under `f`. -/
def ofKeys (ks : List α) (h : ks.Nodup) (f : α → β) : OrdMap α β :=
  ⟨ks.map fun k => (k, f k), by rwa [List.map_map, show Prod.fst ∘ (fun k => (k, f k)) = id from rfl,
    List.map_id]⟩

/-- Replace every value, in place, by a function of its key and itself. -/
def mapValues (m : OrdMap α β) (f : α → β → γ) : OrdMap α γ :=
  ⟨m.entries.map fun e => (e.1, f e.1 e.2), by
    rw [List.map_map, show Prod.fst ∘ (fun e : α × β => (e.1, f e.1 e.2)) = Prod.fst from rfl]
    exact m.nodup⟩

section
variable {m : OrdMap α β} {e : α × β} {v : β}

theorem ext_entries {n : OrdMap α β} (h : m.entries = n.entries) : m = n := by
  cases m; cases n; simpa using h

instance [DecidableEq α] [DecidableEq β] : DecidableEq (OrdMap α β) := fun m n =>
  decidable_of_iff (m.entries = n.entries) ⟨ext_entries, fun h => by rw [h]⟩

@[simp] theorem entries_empty : (empty : OrdMap α β).entries = [] := rfl

@[simp] theorem entries_mapValues (m : OrdMap α β) (f : α → β → γ) :
    (m.mapValues f).entries = m.entries.map fun e => (e.1, f e.1 e.2) := rfl

@[simp] theorem keys_mapValues (m : OrdMap α β) (f : α → β → γ) :
    (m.mapValues f).keys = m.keys := by
  simp [keys, Function.comp_def]

@[simp] theorem keys_ofKeys (ks : List α) (h : ks.Nodup) (f : α → β) :
    (ofKeys ks h f).keys = ks := by
  simp [keys, ofKeys, Function.comp_def]

theorem mapValues_congr {f g : α → β → γ} (h : ∀ e ∈ m.entries, f e.1 e.2 = g e.1 e.2) :
    m.mapValues f = m.mapValues g := by
  have hentries : (m.mapValues f).entries = (m.mapValues g).entries :=
    List.map_congr_left fun e he => by rw [h e he]
  simp only [mapValues, mk.injEq] at hentries ⊢
  exact hentries

theorem values_mapValues (m : OrdMap α β) (f : β → γ) :
    (m.mapValues fun _ v => f v).values = m.values.map f := by
  simp [values, Function.comp_def]

theorem mem_entries_ofKeys {ks : List α} {h : ks.Nodup} {f : α → β} :
    e ∈ (ofKeys ks h f).entries ↔ e.1 ∈ ks ∧ f e.1 = e.2 := by
  simp only [ofKeys, List.mem_map]
  constructor
  · rintro ⟨k, hk, rfl⟩
    exact ⟨hk, rfl⟩
  · rintro ⟨hk, hv⟩
    exact ⟨e.1, hk, by rw [hv]⟩

theorem mem_values : v ∈ m.values ↔ ∃ k, (k, v) ∈ m.entries := by
  simp [values]

theorem mem_keys_of_mem (h : e ∈ m.entries) : e.1 ∈ m.keys :=
  List.mem_map_of_mem h

/-- A key has one value. -/
theorem entries_unique {k : α} {w : β} (hv : (k, v) ∈ m.entries) (hw : (k, w) ∈ m.entries) :
    v = w := by
  have h := List.inj_on_of_nodup_map m.nodup hv hw rfl
  exact congrArg Prod.snd h

end

section Lookup

variable [DecidableEq α]

/-- The value of a key, if it has one. -/
def get? (m : OrdMap α β) (k : α) : Option β :=
  (m.entries.find? fun e => decide (e.1 = k)).map Prod.snd

/-- Replace the value of one key by a function of itself, in place. -/
def modify (m : OrdMap α β) (k : α) (f : β → β) : OrdMap α β :=
  m.mapValues fun a v => if a = k then f v else v

/-- Set a key: in place when it is there, at the end otherwise. -/
def set (m : OrdMap α β) (k : α) (v : β) : OrdMap α β :=
  if h : k ∈ m.keys then m.modify k fun _ => v
  else ⟨m.entries ++ [(k, v)], by
    rw [List.map_append, List.nodup_append]
    refine ⟨m.nodup, List.nodup_singleton _, ?_⟩
    intro a ha b hb hab
    rw [List.map_singleton, List.mem_singleton] at hb
    rw [hab, hb] at ha
    exact h ha⟩

/-- Set several keys, one after the other. -/
def setAll (m : OrdMap α β) (kvs : List (α × β)) : OrdMap α β :=
  kvs.foldl (fun acc kv => acc.set kv.1 kv.2) m

/-- Remove a key. -/
def erase (m : OrdMap α β) (k : α) : OrdMap α β :=
  ⟨m.entries.filter fun e => decide (e.1 ≠ k), m.nodup.sublist (List.filter_sublist.map Prod.fst)⟩

variable {m : OrdMap α β} {k a : α} {v : β} {kvs : List (α × β)}

theorem mem_entries_erase {e : α × β} : e ∈ (m.erase k).entries ↔ e ∈ m.entries ∧ e.1 ≠ k := by
  simp [erase]

theorem get?_eq_some_iff : m.get? k = some v ↔ (k, v) ∈ m.entries := by
  constructor
  · intro h
    obtain ⟨e, he, rfl⟩ := Option.map_eq_some_iff.mp h
    have hk : e.1 = k := by simpa using List.find?_some he
    exact hk ▸ List.mem_of_find?_eq_some he
  · intro h
    obtain ⟨e, he⟩ : ∃ e, m.entries.find? (fun e => decide (e.1 = k)) = some e := by
      rw [← Option.isSome_iff_exists, List.find?_isSome]
      exact ⟨_, h, by simp⟩
    have hk : e.1 = k := by simpa using List.find?_some he
    have hv : e.2 = v := entries_unique (hk ▸ List.mem_of_find?_eq_some he) h
    simp only [get?, he, Option.map_some, hv]

theorem get?_eq_none_iff : m.get? k = none ↔ k ∉ m.keys := by
  rw [Option.eq_none_iff_forall_ne_some]
  constructor
  · intro h hk
    obtain ⟨e, he, rfl⟩ := List.mem_map.mp hk
    exact h e.2 (get?_eq_some_iff.mpr he)
  · intro h v hv
    exact h (mem_keys_of_mem (get?_eq_some_iff.mp hv))

theorem get?_isSome_iff : (m.get? k).isSome ↔ k ∈ m.keys := by
  rw [← not_iff_not, Option.not_isSome_iff_eq_none, get?_eq_none_iff]

@[simp] theorem keys_modify (m : OrdMap α β) (k : α) (f : β → β) : (m.modify k f).keys = m.keys :=
  keys_mapValues m _

theorem mem_entries_modify {f : β → β} :
    (a, v) ∈ (m.modify k f).entries ↔
      ∃ w, (a, w) ∈ m.entries ∧ v = if a = k then f w else w := by
  simp only [modify, entries_mapValues, List.mem_map, Prod.mk.injEq, Prod.exists]
  constructor
  · rintro ⟨b, w, h, rfl, hv⟩
    exact ⟨w, h, hv.symm⟩
  · rintro ⟨w, h, hv⟩
    exact ⟨a, w, h, rfl, hv.symm⟩

/-- A quantity that the update of one key leaves alone is left alone everywhere. -/
theorem map_modify_eq {δ : Type*} (m : OrdMap α β) (k : α) (f : β → β) (g : α × β → δ)
    (h : ∀ v, g (k, f v) = g (k, v)) :
    (m.modify k f).entries.map g = m.entries.map g := by
  simp only [modify, entries_mapValues, List.map_map]
  refine List.map_congr_left fun e _ => ?_
  by_cases he : e.1 = k
  · obtain ⟨a, v⟩ := e
    subst he
    simp [h]
  · simp [he]

theorem set_of_mem (h : k ∈ m.keys) (v : β) : m.set k v = m.modify k fun _ => v := dif_pos h

theorem entries_set_of_notMem (h : k ∉ m.keys) (v : β) :
    (m.set k v).entries = m.entries ++ [(k, v)] := by
  rw [set, dif_neg h]

theorem mem_keys_set : a ∈ (m.set k v).keys ↔ a ∈ m.keys ∨ a = k := by
  by_cases h : k ∈ m.keys
  · rw [set_of_mem h, keys_modify]
    exact ⟨Or.inl, fun ha => ha.elim id fun e => e ▸ h⟩
  · rw [keys, entries_set_of_notMem h, List.map_append, List.mem_append]
    simp [keys]

theorem mem_entries_set {w : β} :
    (a, w) ∈ (m.set k v).entries ↔ (a = k ∧ w = v) ∨ (a ≠ k ∧ (a, w) ∈ m.entries) := by
  by_cases h : k ∈ m.keys
  · rw [set_of_mem h, mem_entries_modify]
    by_cases hak : a = k
    · subst hak
      obtain ⟨e, he, hek⟩ := List.mem_map.mp h
      refine ⟨fun ⟨x, _, hx⟩ => Or.inl ⟨rfl, by simpa using hx⟩, ?_⟩
      rintro (⟨-, rfl⟩ | ⟨hne, -⟩)
      · exact ⟨e.2, hek ▸ he, by simp⟩
      · exact absurd rfl hne
    · simp [hak]
  · rw [entries_set_of_notMem h, List.mem_append]
    by_cases hak : a = k
    · subst hak
      have hno : (a, w) ∉ m.entries := fun hm => h (mem_keys_of_mem hm)
      simp [hno]
    · simp [hak]

theorem get?_modify (m : OrdMap α β) (k a : α) (f : β → β) :
    (m.modify k f).get? a = (m.get? a).map fun v => if a = k then f v else v := by
  refine Option.ext fun v => ?_
  rw [get?_eq_some_iff, mem_entries_modify]
  constructor
  · rintro ⟨w, hw, rfl⟩
    rw [get?_eq_some_iff.mpr hw, Option.map_some]
  · intro h
    obtain ⟨w, hw, rfl⟩ := Option.map_eq_some_iff.mp h
    exact ⟨w, get?_eq_some_iff.mp hw, rfl⟩

theorem modify_id (m : OrdMap α β) (k : α) : (m.modify k fun v => v) = m := by
  refine ext_entries ?_
  simp [modify]

theorem modify_modify (m : OrdMap α β) (k : α) (f g : β → β) :
    (m.modify k f).modify k g = m.modify k fun v => g (f v) := by
  refine ext_entries ?_
  simp only [modify, entries_mapValues, List.map_map]
  refine List.map_congr_left fun e _ => ?_
  by_cases hk : e.1 = k
  · simp [hk]
  · simp [hk]

theorem get?_mapValues (m : OrdMap α β) (a : α) (f : α → β → γ) :
    (m.mapValues f).get? a = (m.get? a).map (f a) := by
  refine Option.ext fun v => ?_
  simp only [get?_eq_some_iff, entries_mapValues, List.mem_map, Prod.mk.injEq, Prod.exists,
    Option.map_eq_some_iff]
  constructor
  · rintro ⟨b, w, hw, rfl, rfl⟩
    exact ⟨w, hw, rfl⟩
  · rintro ⟨w, hw, rfl⟩
    exact ⟨a, w, hw, rfl, rfl⟩

theorem get?_set (m : OrdMap α β) (k a : α) (v : β) :
    (m.set k v).get? a = if a = k then some v else m.get? a := by
  refine Option.ext fun w => ?_
  rw [get?_eq_some_iff, mem_entries_set]
  by_cases hak : a = k
  · simp [hak, eq_comm]
  · simp [hak, get?_eq_some_iff]

theorem get?_ofKeys (ks : List α) (h : ks.Nodup) (f : α → β) (k : α) :
    (ofKeys ks h f).get? k = if k ∈ ks then some (f k) else none := by
  refine Option.ext fun v => ?_
  rw [get?_eq_some_iff, mem_entries_ofKeys]
  by_cases hk : k ∈ ks
  · simp [hk]
  · simp [hk]

/-- Maps with the same entries in some order are looked up alike. -/
theorem get?_eq_of_perm {n : OrdMap α β} (h : m.entries.Perm n.entries) (k : α) :
    m.get? k = n.get? k := by
  refine Option.ext fun v => ?_
  rw [get?_eq_some_iff, get?_eq_some_iff, h.mem_iff]

/-- Maps that are looked up alike have the same entries in some order. -/
theorem perm_of_get?_eq {n : OrdMap α β} (h : ∀ k, m.get? k = n.get? k) :
    m.entries.Perm n.entries := by
  refine (List.perm_ext_iff_of_nodup (List.Nodup.of_map _ m.nodup)
    (List.Nodup.of_map _ n.nodup)).mpr ?_
  rintro ⟨k, v⟩
  rw [← get?_eq_some_iff, ← get?_eq_some_iff, h]

/-- A property of all entries survives setting a key to a value that has it. -/
theorem forall_entries_set {P : α × β → Prop} (hm : ∀ e ∈ m.entries, P e) (hkv : P (k, v)) :
    ∀ e ∈ (m.set k v).entries, P e := by
  rintro ⟨a, w⟩ hw
  rcases mem_entries_set.mp hw with ⟨rfl, rfl⟩ | ⟨-, hold⟩
  · exact hkv
  · exact hm _ hold

/-- A property of all entries survives setting several keys to values that have it. -/
theorem forall_entries_setAll {P : α × β → Prop} (hm : ∀ e ∈ m.entries, P e) (hkvs : ∀ e ∈ kvs, P e)
    :
    ∀ e ∈ (m.setAll kvs).entries, P e := by
  induction kvs generalizing m with
  | nil => exact hm
  | cons kv kvs ih =>
    exact ih (forall_entries_set hm (hkvs kv List.mem_cons_self))
      fun e he => hkvs e (List.mem_cons_of_mem _ he)

theorem mem_keys_setAll : a ∈ (m.setAll kvs).keys ↔ a ∈ m.keys ∨ a ∈ kvs.map Prod.fst := by
  induction kvs generalizing m with
  | nil => simp [setAll]
  | cons kv kvs ih =>
    show a ∈ ((m.set kv.1 kv.2).setAll kvs).keys ↔ _
    rw [ih, mem_keys_set, List.map_cons, List.mem_cons, or_assoc]

/-- Setting keys that are new and distinct appends the pairs as they come. -/
theorem entries_setAll (h : (m.keys ++ kvs.map Prod.fst).Nodup) :
    (m.setAll kvs).entries = m.entries ++ kvs := by
  induction kvs generalizing m with
  | nil => simp [setAll]
  | cons kv kvs ih =>
    have hnew : kv.1 ∉ m.keys := by
      intro hk
      exact (List.nodup_append.mp h).2.2 _ hk _ List.mem_cons_self rfl
    have hset := entries_set_of_notMem hnew kv.2
    have hkeys : (m.set kv.1 kv.2).keys = m.keys ++ [kv.1] := by
      rw [keys, hset, List.map_append]; rfl
    have hrest := ih (m := m.set kv.1 kv.2) (by rw [hkeys]; simpa using h)
    show ((m.set kv.1 kv.2).setAll kvs).entries = _
    rw [hrest, hset, List.append_assoc]
    rfl

/-- A map laid over another one. -/
theorem get?_setAll (m n : OrdMap α β) (k : α) :
    (m.setAll n.entries).get? k = (n.get? k).or (m.get? k) := by
  suffices hall : ∀ (kvs : List (α × β)) (m : OrdMap α β), (kvs.map Prod.fst).Nodup →
      (m.setAll kvs).get? k
        = ((kvs.find? fun e => decide (e.1 = k)).map Prod.snd).or (m.get? k) from
    hall n.entries m n.nodup
  intro kvs
  induction kvs with
  | nil => exact fun _ _ => rfl
  | cons kv kvs ih =>
    intro m hnodup
    obtain ⟨hnotin, hrest⟩ := List.nodup_cons.mp hnodup
    refine (ih (m.set kv.1 kv.2) hrest).trans ?_
    rw [get?_set]
    by_cases hk : kv.1 = k
    · -- the key does not occur again
      have hnone : kvs.find? (fun e => decide (e.1 = k)) = none := by
        rw [List.find?_eq_none]
        intro e he hek
        refine hnotin (List.mem_map.mpr ⟨e, he, ?_⟩)
        rw [of_decide_eq_true hek, hk]
      rw [hnone, List.find?_cons_of_pos (by simpa using hk), if_pos hk.symm]
      rfl
    · rw [List.find?_cons_of_neg (by simpa using hk), if_neg (Ne.symm hk)]

end Lookup

/-! ### Totals over the values -/

section Totals

variable {M : Type*} [AddCommGroup M]

/-- An update of every value adds to the total what it adds to each. -/
theorem sum_mapValues_add (m : OrdMap α β) (f : α → β → β) (g : β → M) (d : α → β → M)
    (h : ∀ e ∈ m.entries, g (f e.1 e.2) = g e.2 + d e.1 e.2) :
    ((m.mapValues f).values.map g).sum
      = (m.values.map g).sum + (m.entries.map fun e => d e.1 e.2).sum := by
  simp only [values, entries_mapValues, List.map_map]
  rw [← List.sum_map_add]
  refine congrArg List.sum (List.map_congr_left fun e he => ?_)
  exact h e he

variable [DecidableEq α]

/-- A list with distinct first components has one entry for a key, so a sum that is zero
off that key is the value there. -/
theorem sum_ite_key {l : List (α × β)} (hl : (l.map Prod.fst).Nodup) {k : α} {v : β}
    (hmem : (k, v) ∈ l) (d : β → M) :
    (l.map fun e => if e.1 = k then d e.2 else 0).sum = d v := by
  induction l with
  | nil => cases hmem
  | cons e l ih =>
    obtain ⟨hnotin, hrest⟩ := List.nodup_cons.mp hl
    rcases List.mem_cons.mp hmem with rfl | htail
    · have hzero : (l.map fun e => if e.1 = k then d e.2 else 0) = l.map fun _ => (0 : M) :=
        List.map_congr_left fun x hx =>
          if_neg fun (hxk : x.1 = k) => hnotin (List.mem_map.mpr ⟨x, hx, hxk⟩)
      simp [hzero]
    · have hne : e.1 ≠ k := fun (he : e.1 = k) =>
        hnotin (List.mem_map.mpr ⟨(k, v), htail, he.symm⟩)
      simp [hne, ih hrest htail]

/-- An update of one key moves the total by what it does to that value. -/
theorem sum_modify {m : OrdMap α β} {k : α} {v : β} (hmem : (k, v) ∈ m.entries)
    (f : β → β) (g : β → M) :
    ((m.modify k f).values.map g).sum = (m.values.map g).sum + (g (f v) - g v) := by
  rw [modify, sum_mapValues_add m _ g (fun a w => if a = k then g (f w) - g w else 0)]
  · rw [sum_ite_key m.nodup hmem fun w => g (f w) - g w]
  · intro e _
    by_cases he : e.1 = k <;> simp [he]

end Totals

end OrdMap

end PublicPool.Lib
