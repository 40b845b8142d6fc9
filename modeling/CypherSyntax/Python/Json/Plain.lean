import CypherSyntax.Python.Json.Hooks
import CypherSyntax.Python.Json.Object

/-!
# What survives a round trip

A value that `dumps` accepts is read back as itself exactly when it is plain: `loads` builds plain
values only, and every plain value that `dumps` accepts is readable. Sorting the dictionaries of a
plain value does not change its text.

Results:
* `plain_of_same`: what is the same as a plain value is plain.
* `readable_of_dumps`: a plain value that `dumps` accepts without NaN is readable.
* `dumps_sorted`: a plain value and the value with sorted dictionaries have one text.
-/

namespace Python.Json

variable {κ : Type}

/-! ## Plain values -/

theorem plainList_of_same : ∀ {xs ys : List Value},
    (∀ x ∈ xs, ∀ {y : Value}, x.same y = true → y.plain = true → x.plain = true) →
    sameList xs ys = true → plainList ys = true → plainList xs = true
  | [], _, _, _, _ => rfl
  | _ :: _, [], _, h, _ => absurd h (by simp [sameList])
  | x :: xs, y :: ys, ih, h, hp => by
    rw [sameList, Bool.and_eq_true] at h
    rw [plainList, Bool.and_eq_true] at hp ⊢
    exact ⟨ih x List.mem_cons_self h.1 hp.1,
      plainList_of_same (fun x hx => ih x (List.mem_cons_of_mem _ hx)) h.2 hp.2⟩

/-- What is the same as a plain value is plain. -/
theorem plain_of_same (v : Value) : ∀ {w : Value}, v.same w = true → w.plain = true →
    v.plain = true := by
  induction v using Value.induct with
  | none | bool | int | float | str | bytes => intro _ _ _; rfl
  | list xs ih =>
    intro w h hp
    cases w with
    | list ys => exact plainList_of_same ih h hp
    | _ => simp [Value.same] at h
  | tuple xs _ =>
    intro w h hp
    cases w with
    | tuple ys => exact hp
    | _ => simp [Value.same] at h
  | dict kvs ih =>
    intro w h hp
    cases w with
    | dict kws =>
      rw [Value.same, Bool.and_eq_true] at h
      refine plainItems_iff.mpr fun kv hkv => ?_
      obtain ⟨u, hu, hsame⟩ := sameItems_iff.mp h.2 kv hkv
      obtain ⟨l₁, l₂, rfl, -⟩ := List.lookup_eq_some_iff.mp hu
      obtain ⟨hkey, hval⟩ := plainItems_iff.mp hp (kv.1, u) (by simp)
      exact ⟨hkey, ih kv hkv hsame hval⟩
    | _ => simp [Value.same] at h

/-- The keys of a plain dictionary are strings. -/
theorem isStr_of_plain {kvs : List (Key × Value)} (h : plainItems kvs = true) :
    ∀ kv ∈ kvs, ∃ s, kv.1 = .str s := fun kv hkv => (plainItems_iff.mp h kv hkv).1

variable [Interpreter]

/-! ## Texts of plain values -/

omit [Interpreter] in
theorem sortItems_str {α : Type} {kvs : List (Key × α)} (h : ∀ kv ∈ kvs, ∃ s, kv.1 = .str s) :
    sortItems (κ := κ) kvs = .ok (sortByKey kvs) := by
  unfold sortItems
  refine if_pos (Or.inr (Or.inl (List.all_eq_true.mpr fun kv hkv => ?_)))
  obtain ⟨s, hs⟩ := h kv hkv
  rw [hs]
  rfl

/-- A plain value that `dumps` accepts, without the constants for NaN and infinities, reads back:
induction over the value. -/
theorem readable_of_dumps (v : Value) : ∀ {text : Str}, v.plain = true → v.WF →
    dumps false false v = (.ok text : Except (Exc κ) Str) → Readable false v := by
  induction v using Value.induct with
  | none | bool | int => intro _ _ _ _; trivial
  | str => intro _ _ _ _ h; cases h
  | bytes => intro _ _ _ h; cases h
  | tuple => intro _ h; cases h
  | float bits =>
    intro text _ _ h
    by_cases hf : isFinite bits = true
    · exact hf
    · simp [dumps, encodeFloat, hf] at h
  | list xs ih =>
    intro text hp hw h
    obtain ⟨texts, ht, -⟩ := bind_eq_ok.mp h
    refine readableList_iff.mpr fun x hx => ?_
    obtain ⟨u, hu⟩ := forall₂_exists (dumpsList_eq_ok ht) hx
    exact ih x hx (plainList_iff.mp hp x hx) (wfList_iff.mp hw x hx) hu
  | dict kvs ih =>
    rintro text hp ⟨hd, hw⟩ h
    obtain ⟨items, hs, h⟩ := bind_eq_ok.mp h
    obtain ⟨texts, ht, -⟩ := bind_eq_ok.mp h
    refine ⟨hd.imp Key.ne_of_eqPy, readableItems_iff.mpr fun kv hkv => ?_⟩
    obtain ⟨⟨s, hk⟩, hpv⟩ := plainItems_iff.mp hp kv hkv
    refine ⟨⟨s, hk, fun h => absurd h (by simp)⟩, ?_⟩
    have hmem : (kv.1, dumps (κ := κ) false false kv.2) ∈ items := by
      rw [sortItems_eq_ok hs, mem_sortByKey, dumpsItems_eq]
      exact List.mem_map.mpr ⟨kv, hkv, rfl⟩
    obtain ⟨u, hu⟩ := forall₂_exists (mapM_eq_ok ht) hmem
    obtain ⟨_, -, hu⟩ := bind_eq_ok.mp hu
    obtain ⟨body, hbody, -⟩ := bind_eq_ok.mp hu
    exact ih kv hkv hpv (wfItems_iff.mp hw kv hkv) hbody

theorem dumpsList_sorted {ea an : Bool} : ∀ {xs : List Value},
    (∀ x ∈ xs, dumps (κ := κ) ea an x.sorted = dumps ea an x) →
    dumpsList (κ := κ) ea an (sortedList xs) = dumpsList ea an xs
  | [], _ => rfl
  | x :: xs, h => by
    rw [sortedList, dumpsList, dumpsList, h x List.mem_cons_self,
      dumpsList_sorted fun y hy => h y (List.mem_cons_of_mem x hy)]

/-- **Sorting the dictionaries of a plain value does not change its text**: induction over the
value. -/
theorem dumps_sorted {ea an : Bool} (v : Value) : v.plain = true →
    dumps (κ := κ) ea an v.sorted = dumps ea an v := by
  induction v using Value.induct with
  | none | bool | int | float | str | bytes => intro _; rfl
  | tuple => intro h; cases h
  | list xs ih =>
    intro hp
    rw [Value.sorted, dumps, dumps, dumpsList_sorted fun x hx => ih x hx (plainList_iff.mp hp x hx)]
  | dict kvs ih =>
    intro hp
    have hkeys := isStr_of_plain hp
    have hitems : (sortedItems kvs).map (fun p => (p.1, dumps (κ := κ) ea an p.2)) =
        kvs.map fun p => (p.1, dumps ea an p.2) := by
      rw [sortedItems_eq, List.map_map]
      refine List.map_congr_left fun kv hkv => ?_
      rw [Function.comp, ih kv hkv (plainItems_iff.mp hp kv hkv).2]
    have hstr : ∀ kv ∈ kvs.map (fun p => (p.1, dumps (κ := κ) ea an p.2)),
        ∃ s, kv.1 = .str s := by
      intro kv hkv
      obtain ⟨p, hp', rfl⟩ := List.mem_map.mp hkv
      exact hkeys p hp'
    have hstr' : ∀ kv ∈ sortByKey (kvs.map fun p => (p.1, dumps (κ := κ) ea an p.2)),
        ∃ s, kv.1 = .str s := fun kv hkv => hstr kv (mem_sortByKey.mp hkv)
    rw [Value.sorted, dumps, dumps, dumpsItems_eq, dumpsItems_eq, sortByKey_map, hitems,
      sortItems_str hstr, sortItems_str hstr', sortByKey_idem hstr]

end Python.Json
