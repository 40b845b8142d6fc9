import CypherSyntax.Python.Json.Plain

/-!
# Keys that keep their order

`json.dumps(..., sort_keys=True)` sorts the items of a dictionary by their keys, and then turns the
keys into text. What is read from that text is a dictionary of the texts, in the order of the keys.
It has the same text again if and only if that is also the order of the texts. The keys 9 and 10 are
sorted as numbers, and their texts the other way round.

* `reread` is what the text of a value says: arrays for tuples, and the texts of the keys.
* `keysOrdered` is a condition on the value alone: the texts of the keys of every nested dictionary
  strictly increase in the order of the keys.

Results:
* `scans_reread`: the text of a value is read as `reread`, by hooks that build every dictionary.
* `dumps_reread`: what is read has the same text, if the keys are ordered.
* `rereads_iff`: some value that `json.loads` can build has the text of a value if and only if its
  keys are ordered and its containers are no deeper than the recursion limit.
-/

namespace Python.Json

variable {κ : Type} [Interpreter]

mutual

/-- What the text of a value says. -/
def reread : Value → Value
  | .list xs => .list (rereadList xs)
  | .tuple xs => .list (rereadList xs)
  | .dict kvs => .dict ((sortByKey (rereadItems kvs)).map fun p => (.str (Key.text p.1), p.2))
  | .none => .none
  | .bool b => .bool b
  | .int i => .int i
  | .float f => .float f
  | .str s => .str s
  | .bytes b => .bytes b

def rereadList : List Value → List Value
  | [] => []
  | x :: xs => reread x :: rereadList xs

def rereadItems : List (Key × Value) → List (Key × Value)
  | [] => []
  | (k, v) :: kvs => (k, reread v) :: rereadItems kvs

end

/-- The texts strictly increase. -/
def increasing (texts : List Str) : Bool := decide (texts.Pairwise fun s t => strLe t s = false)

mutual

/-- In every nested dictionary the texts of the keys are in the order of the keys. -/
def keysOrdered : Value → Bool
  | .list xs => orderedList xs
  | .tuple xs => orderedList xs
  | .dict kvs => increasing ((sortByKey kvs).map fun p => Key.text p.1) && orderedItems kvs
  | _ => true

def orderedList : List Value → Bool
  | [] => true
  | x :: xs => keysOrdered x && orderedList xs

def orderedItems : List (Key × Value) → Bool
  | [] => true
  | (_, v) :: kvs => keysOrdered v && orderedItems kvs

end

theorem rereadList_eq (xs : List Value) : rereadList xs = xs.map reread := by
  induction xs with
  | nil => rfl
  | cons x xs ih => rw [rereadList, ih, List.map_cons]

/-- The items of a dictionary that is read, in the order of the keys. -/
theorem reread_dict (kvs : List (Key × Value)) : reread (.dict kvs) =
    .dict ((sortByKey kvs).map fun p => (.str (Key.text p.1), reread p.2)) := by
  have hitems : rereadItems kvs = kvs.map fun p => (p.1, reread p.2) := by
    induction kvs with
    | nil => rfl
    | cons kv kvs ih => rw [rereadItems, ih, List.map_cons]
  rw [reread, hitems, ← sortByKey_map, List.map_map]
  rfl

theorem orderedList_iff {xs : List Value} :
    orderedList xs = true ↔ ∀ x ∈ xs, keysOrdered x = true := by
  induction xs with
  | nil => simp [orderedList]
  | cons x xs ih => rw [orderedList, Bool.and_eq_true, ih, List.forall_mem_cons]

theorem orderedItems_iff {kvs : List (Key × Value)} :
    orderedItems kvs = true ↔ ∀ kv ∈ kvs, keysOrdered kv.2 = true := by
  induction kvs with
  | nil => simp [orderedItems]
  | cons kv kvs ih => rw [orderedItems, Bool.and_eq_true, ih, List.forall_mem_cons]

/-- A dictionary whose keys are ordered. -/
theorem keysOrdered_dict {kvs : List (Key × Value)} : keysOrdered (.dict kvs) = true ↔
    ((sortByKey kvs).map fun p => Key.text p.1).Pairwise (fun s t => strLe t s = false) ∧
      ∀ kv ∈ kvs, keysOrdered kv.2 = true := by
  rw [keysOrdered, Bool.and_eq_true, orderedItems_iff, increasing, decide_eq_true_iff]

omit [Interpreter] in
theorem strLe_antisymm : ∀ {s t : Str}, strLe s t = true → strLe t s = true → s = t
  | [], [], _, _ => rfl
  | [], _ :: _, _, h => absurd h (by simp [strLe])
  | _ :: _, [], h, _ => absurd h (by simp [strLe])
  | a :: s, b :: t, h, h' => by
    simp only [strLe, Bool.or_eq_true, Bool.and_eq_true, decide_eq_true_eq, beq_iff_eq] at h h'
    obtain ⟨hab, hst⟩ := h.resolve_left (by omega)
    obtain ⟨-, hts⟩ := h'.resolve_left (by omega)
    rw [Fin.ext hab, strLe_antisymm hst hts]

omit [Interpreter] in
theorem strLe_of_lt {s t : Str} (h : strLe t s = false) : strLe s t = true :=
  (strLe_total s t).resolve_right (by rw [h]; exact Bool.false_ne_true)

/-! ## What is read -/

theorem plain_reread (v : Value) : (reread v).plain = true := by
  induction v using Value.induct with
  | none | bool | int | float | str | bytes => rfl
  | list xs ih | tuple xs ih =>
    rw [reread, rereadList_eq]
    exact plainList_iff.mpr fun x hx => by
      obtain ⟨y, hy, rfl⟩ := List.mem_map.mp hx
      exact ih y hy
  | dict kvs ih =>
    rw [reread_dict]
    exact plainItems_iff.mpr fun kv hkv => by
      obtain ⟨p, hp, rfl⟩ := List.mem_map.mp hkv
      exact ⟨⟨_, rfl⟩, ih p (mem_sortByKey.mp hp)⟩

theorem depth_reread (v : Value) : ∀ n, (reread v).depth ≤ n ↔ v.depth ≤ n := by
  induction v using Value.induct with
  | none | bool | int | float | str | bytes => exact fun _ => Iff.rfl
  | list xs ih | tuple xs ih =>
    rintro (_ | n)
    · exact iff_of_false (Nat.not_succ_le_zero _) (Nat.not_succ_le_zero _)
    rw [reread, rereadList_eq, Value.depth, Value.depth, Nat.succ_le_succ_iff,
      Nat.succ_le_succ_iff, depthList_le, depthList_le, List.forall_mem_map]
    exact forall₂_congr fun x hx => ih x hx n
  | dict kvs ih =>
    rintro (_ | n)
    · exact iff_of_false (Nat.not_succ_le_zero _) (Nat.not_succ_le_zero _)
    rw [reread_dict, Value.depth, Value.depth, Nat.succ_le_succ_iff, Nat.succ_le_succ_iff,
      depthItems_le, depthItems_le, List.forall_mem_map]
    simp only [mem_sortByKey]
    exact forall₂_congr fun kv hkv => ih kv hkv n

/-- Ordered keys are distinct. -/
theorem wf_reread (v : Value) : keysOrdered v = true → (reread v).WF := by
  induction v using Value.induct with
  | none | bool | int | float | str | bytes => exact fun _ => trivial
  | list xs ih | tuple xs ih =>
    intro h
    rw [reread, rereadList_eq]
    refine wfList_iff.mpr fun x hx => ?_
    obtain ⟨y, hy, rfl⟩ := List.mem_map.mp hx
    exact ih y hy (orderedList_iff.mp h y hy)
  | dict kvs ih =>
    intro h
    obtain ⟨hkeys, hvalues⟩ := keysOrdered_dict.mp h
    rw [reread_dict]
    refine ⟨?_, wfItems_iff.mpr fun kv hkv => ?_⟩
    · rw [List.pairwise_map] at hkeys ⊢
      refine hkeys.imp fun {p q} hlt => ?_
      rw [Key.eqPy_str, beq_eq_false_iff_ne]
      intro heq
      rw [heq] at hlt
      exact absurd ((strLe_total _ _).elim id id) (by rw [hlt]; exact Bool.false_ne_true)
    · obtain ⟨p, hp, rfl⟩ := List.mem_map.mp hkv
      exact ih p (mem_sortByKey.mp hp) (hvalues p (mem_sortByKey.mp hp))

/-- What is read from the text of a plain value is the value, sorted. -/
theorem reread_of_plain (v : Value) : v.plain = true → reread v = v.sorted := by
  induction v using Value.induct with
  | none | bool | int | float | str | bytes => exact fun _ => rfl
  | tuple => exact fun h => nomatch h
  | list xs ih =>
    intro h
    rw [reread, Value.sorted, rereadList_eq, sortedList_eq]
    exact congrArg Value.list (List.map_congr_left fun x hx => ih x hx (plainList_iff.mp h x hx))
  | dict kvs ih =>
    intro h
    rw [reread_dict, Value.sorted, sortedItems_eq, ← sortByKey_map]
    refine congrArg Value.dict (List.map_congr_left fun kv hkv => ?_)
    obtain ⟨⟨s, hs⟩, hplain⟩ := plainItems_iff.mp h kv (mem_sortByKey.mp hkv)
    rw [ih kv (mem_sortByKey.mp hkv) hplain, hs, Key.text]

theorem built_reread {v : Value} {depth : Nat} (hordered : keysOrdered v = true)
    (hdepth : v.depth ≤ depth) : Built depth (reread v) :=
  ⟨plain_reread v, wf_reread v hordered, (depth_reread v depth).mpr hdepth⟩

/-! ## Reading it -/

/-- The text of a key is what it is encoded to. -/
theorem encodeKey_text {k : Key} {text : Str}
    (h : encodeKey false k = (.ok text : Except (Exc κ) Str)) : Key.text k = text := by
  cases k with
  | str | bool | none => exact Except.ok.inj h
  | int i =>
    rw [encodeKey, encodeInt] at h
    split at h
    · exact Except.ok.inj h
    · cases h
  | float bits =>
    rw [encodeKey, encodeFloat] at h
    split at h
    · exact Except.ok.inj h
    · simp at h

/-- Hooks that build a dictionary from any pairs, repeated keys included. -/
def Hooks.BuildsAll (hooks : Hooks κ) : Prop :=
  ∀ pairs : List (Str × Value),
    hooks.objectPairs pairs = .ok (.dict (pairs.map fun p => (.str p.1, p.2)))

/-- **The text of every value is read as what it says**, where repeated keys are kept: induction
over the value. -/
theorem scans_reread {hooks : Hooks κ} (hb : hooks.BuildsAll) (v : Value) :
    ∀ {text : Str} {depth : Nat}, dumps false false v = (.ok text : Except (Exc κ) Str) →
      v.depth ≤ depth → Scans hooks depth text (reread v) := by
  have hascii : ∀ s : Str, false = true → NoSurrogates s := fun _ h => absurd h Bool.false_ne_true
  have harray : ∀ (xs : List Value), (∀ x ∈ xs, ∀ {text : Str} {depth : Nat},
      dumps false false x = (.ok text : Except (Exc κ) Str) → x.depth ≤ depth →
        Scans hooks depth text (reread x)) → ∀ {texts : List Str} {depth : Nat},
      dumpsList false false xs = (.ok texts : Except (Exc κ) (List Str)) →
      depthList xs + 1 ≤ depth →
        Scans hooks depth (0x5B :: (joinComma texts ++ [0x5D])) (.list (rereadList xs)) := by
    intro xs ih texts depth ht hd
    obtain ⟨depth, rfl⟩ : ∃ n, depth = n + 1 := Nat.exists_eq_succ_of_ne_zero (by omega)
    rw [rereadList_eq]
    exact scans_list hooks depth (forall₂_scans ht fun x hx text hdump =>
      ih x hx hdump (depthList_le.mp (Nat.le_of_succ_le_succ hd) x hx))
  induction v using Value.induct with
  | none =>
    intro text depth h _
    obtain rfl := Except.ok.inj h
    exact scans_word hooks depth List.mem_cons_self
  | bool b =>
    intro text depth h _
    obtain rfl := Except.ok.inj h
    cases b with
    | false =>
      exact scans_word hooks depth
        (List.mem_cons_of_mem _ (List.mem_cons_of_mem _ List.mem_cons_self))
    | true => exact scans_word hooks depth (List.mem_cons_of_mem _ List.mem_cons_self)
  | int i => exact fun h _ => scans_int hooks _ h
  | float bits =>
    intro text depth h _
    by_cases hfinite : isFinite bits = true
    · exact scans_float hooks _ hfinite h
    · rw [dumps, encodeFloat, if_neg hfinite] at h
      cases h
  | str s =>
    intro text depth h _
    obtain rfl := Except.ok.inj h
    exact scans_string hooks depth (hascii s)
  | bytes =>
    intro text depth h
    cases h
  | list xs ih | tuple xs ih =>
    intro text depth h hd
    obtain ⟨texts, ht, h⟩ := bind_eq_ok.mp h
    obtain rfl := Except.ok.inj h
    exact harray xs ih ht hd
  | dict kvs ih =>
    intro text depth h hd
    obtain ⟨items, hs, h⟩ := bind_eq_ok.mp h
    obtain ⟨texts, ht, h⟩ := bind_eq_ok.mp h
    obtain rfl := Except.ok.inj h
    obtain rfl := sortItems_eq_ok hs
    rw [Value.depth] at hd
    obtain ⟨depth, rfl⟩ : ∃ n, depth = n + 1 := Nat.exists_eq_succ_of_ne_zero (by omega)
    have hall := forall₂_itemScans ht
      fun kv hkv key body hkey hbody => ⟨encodeKey_text hkey, hascii key,
        ih kv hkv hbody (depthItems_le.mp (Nat.le_of_succ_le_succ hd) kv hkv)⟩
    rw [reread_dict]
    refine scans_dict depth ?_ hall
    rw [hb, pairs_of_strKeys fun kv hkv => ?_]
    obtain ⟨p, -, rfl⟩ := List.mem_map.mp hkv
    exact ⟨_, rfl⟩

/-! ## Writing it again -/

omit [Interpreter] in
theorem mapM_congr_mem {α β ε : Type} {f g : α → Except ε β} {l : List α}
    (h : ∀ a ∈ l, f a = g a) : l.mapM f = l.mapM g := by
  induction l with
  | nil => rfl
  | cons a l ih =>
    rw [List.mapM_cons, List.mapM_cons, h a List.mem_cons_self,
      ih fun b hb => h b (List.mem_cons_of_mem a hb)]

theorem dumpsList_reread {xs : List Value} {texts : List Str}
    (h : dumpsList false false xs = (.ok texts : Except (Exc κ) (List Str)))
    (ih : ∀ x ∈ xs, ∀ {text : Str}, dumps false false x = (.ok text : Except (Exc κ) Str) →
      dumps false false (reread x) = (.ok text : Except (Exc κ) Str)) :
    dumpsList false false (xs.map reread) = (.ok texts : Except (Exc κ) (List Str)) := by
  induction xs generalizing texts with
  | nil => exact h
  | cons x xs ihs =>
    obtain ⟨text, htext, h⟩ := bind_eq_ok.mp h
    obtain ⟨rest, hrest, h⟩ := bind_eq_ok.mp h
    rw [List.map_cons, dumpsList, ih x List.mem_cons_self htext, ok_bind,
      ihs hrest fun y hy => ih y (List.mem_cons_of_mem x hy)]
    exact h

/-- The texts of the keys are in order, so sorting by them changes nothing. -/
theorem dumpsItems_reread {kvs : List (Key × Value)}
    (hkeys : ((sortByKey kvs).map fun p => Key.text p.1).Pairwise fun s t => strLe t s = false) :
    sortItems (κ := κ) (dumpsItems (κ := κ) false false
      ((sortByKey kvs).map fun p => (.str (Key.text p.1), reread p.2))) =
      .ok ((sortByKey kvs).map fun p => (.str (Key.text p.1), dumps false false (reread p.2))) := by
  rw [dumpsItems_eq, List.map_map, sortItems_str fun kv hkv => ?_]
  · refine congrArg Except.ok (List.Pairwise.insertionSort_eq ?_)
    rw [List.pairwise_map] at hkeys ⊢
    exact hkeys.imp fun hlt => strLe_of_lt hlt
  · obtain ⟨p, -, rfl⟩ := List.mem_map.mp hkv
    exact ⟨_, rfl⟩

/-- Each item has the text that it had. -/
theorem encodeItems_reread {items : List (Key × Value)} {texts : List Str}
    (h : (items.map fun p => (p.1, dumps (κ := κ) false false p.2)).mapM (encodeItem false false) =
      .ok texts)
    (ih : ∀ p ∈ items, ∀ {text : Str}, dumps false false p.2 = (.ok text : Except (Exc κ) Str) →
      dumps false false (reread p.2) = (.ok text : Except (Exc κ) Str)) :
    (items.map fun p => (.str (Key.text p.1), dumps (κ := κ) false false (reread p.2))).mapM
      (encodeItem false false) = .ok texts := by
  rw [← h, List.mapM_map, List.mapM_map]
  rw [List.mapM_map] at h
  refine mapM_congr_mem fun p hp => ?_
  obtain ⟨_, hitem⟩ := forall₂_exists (mapM_eq_ok h) hp
  obtain ⟨key, hkey, hitem⟩ := bind_eq_ok.mp hitem
  obtain ⟨body, hbody, -⟩ := bind_eq_ok.mp hitem
  unfold encodeItem
  simp only [Function.comp] at hkey hbody ⊢
  rw [hkey, hbody, ih p hp hbody, encodeKey_text hkey]
  rfl

/-- **What is read from the text of a value has that text**, if its keys are ordered: induction
over the value. -/
theorem dumps_reread (v : Value) : ∀ {text : Str}, keysOrdered v = true →
    dumps false false v = (.ok text : Except (Exc κ) Str) →
    dumps false false (reread v) = (.ok text : Except (Exc κ) Str) := by
  induction v using Value.induct with
  | none | bool | int | float | str | bytes => exact fun _ h => h
  | list xs ih | tuple xs ih =>
    intro text hordered h
    obtain ⟨texts, ht, h⟩ := bind_eq_ok.mp h
    rw [reread, rereadList_eq, dumps, dumpsList_reread ht fun x hx _ htext =>
      ih x hx (orderedList_iff.mp hordered x hx) htext]
    exact h
  | dict kvs ih =>
    intro text hordered h
    obtain ⟨hkeys, hvalues⟩ := keysOrdered_dict.mp hordered
    obtain ⟨items, hs, h⟩ := bind_eq_ok.mp h
    obtain ⟨texts, ht, h⟩ := bind_eq_ok.mp h
    obtain rfl := sortItems_eq_ok hs
    rw [dumpsItems_eq, ← sortByKey_map] at ht
    have htexts := encodeItems_reread ht fun kv hkv _ hbody =>
      ih kv (mem_sortByKey.mp hkv) (hvalues kv (mem_sortByKey.mp hkv)) hbody
    rw [reread_dict, dumps, dumpsItems_reread hkeys, ok_bind, htexts]
    rw [dumpsItems_eq, ← sortByKey_map, ht] at h
    exact h

/-! ## Which values have a text that is read back -/

omit [Interpreter] in
/-- The keys of a plain dictionary are distinct, so they strictly increase once they are sorted. -/
theorem sortByKey_increasing {kvs : List (Key × Value)} (hplain : plainItems kvs = true)
    (hdistinct : kvs.Pairwise fun p q => Key.eqPy p.1 q.1 = false) :
    (sortByKey kvs).Pairwise fun p q =>
      ∀ s t, p.1 = .str s → q.1 = .str t → strLe t s = false := by
  have hsorted := sortByKey_sorted (isStr_of_plain hplain)
  have hne := ((sortByKey_perm kvs).pairwise_iff (R := fun p q => p.1 ≠ q.1)
    fun {_ _} h => Ne.symm h).mpr (hdistinct.imp Key.ne_of_eqPy)
  refine (hsorted.and hne).imp fun {p q} h s t hs ht => ?_
  obtain ⟨hle, hne⟩ := h
  rw [hs, ht] at hne hle
  rw [← Bool.not_eq_true]
  exact fun hge => hne (congrArg Key.str (strLe_antisymm hle hge))

/-- What is read is sorted, so the texts of the keys were in order: induction over the value. -/
theorem keysOrdered_of_reread (v : Value) : ∀ {w : Value}, w.plain = true → w.WF →
    reread v = w.sorted → keysOrdered v = true := by
  induction v using Value.induct with
  | none | bool | int | float | str | bytes => exact fun _ _ _ => rfl
  | list xs ih | tuple xs ih =>
    intro w hplain hwf h
    rw [reread, rereadList_eq] at h
    cases w with
    | list ys =>
      rw [Value.sorted, sortedList_eq, Value.list.injEq] at h
      refine orderedList_iff.mpr fun x hx => ?_
      obtain ⟨y, hy, hxy⟩ := List.mem_map.mp (h ▸ List.mem_map_of_mem hx)
      exact ih x hx (plainList_iff.mp hplain y hy) (wfList_iff.mp hwf y hy) hxy.symm
    | _ => cases h
  | dict kvs ih =>
    intro w hplain hwf h
    rw [reread_dict] at h
    cases w with
    | dict kws =>
      rw [Value.sorted, sortedItems_eq, ← sortByKey_map, Value.dict.injEq] at h
      obtain ⟨hdistinct, hvalues⟩ := hwf
      refine keysOrdered_dict.mpr ⟨?_, fun kv hkv => ?_⟩
      · have hkeys := congrArg (List.map Prod.fst) h
        rw [List.map_map, List.map_map] at hkeys
        have hincreasing := sortByKey_increasing hplain hdistinct
        have hlt : ((sortByKey kws).map (Prod.fst ∘ fun p => (p.1, p.2.sorted))).Pairwise
            fun k l => ∀ s t, k = .str s → l = .str t → strLe t s = false := by
          rw [List.pairwise_map]
          exact hincreasing
        rw [← hkeys, List.pairwise_map] at hlt
        rw [List.pairwise_map]
        exact hlt.imp fun h => h _ _ rfl rfl
      · obtain ⟨kw, hkw, heq⟩ := List.mem_map.mp (h ▸ List.mem_map_of_mem (mem_sortByKey.mpr hkv))
        have hkw := mem_sortByKey.mp hkw
        exact ih kv hkv (plainItems_iff.mp hplain kw hkw).2 (wfItems_iff.mp hvalues kw hkw)
          (Prod.mk.inj heq).2.symm
    | _ => cases h

/-- Hooks that build a dictionary from any pairs, and read a constant as `None`. -/
def anyHooks : Hooks κ where
  objectPairs pairs := .ok (.dict (pairs.map fun p => (.str p.1, p.2)))
  parseConstant _ := .ok .none

/-- **Which values have a text that some value read by `json.loads` has as well**: those whose keys
are ordered and whose containers are no deeper than the recursion limit. -/
theorem rereads_iff {v : Value} {text : Str}
    (h : dumps false false v = (.ok text : Except (Exc κ) Str)) :
    (∃ w, Built Interpreter.recursionLimit w ∧
      dumps false false w = (.ok text : Except (Exc κ) Str)) ↔
    keysOrdered v = true ∧ v.depth ≤ Interpreter.recursionLimit := by
  constructor
  · rintro ⟨w, ⟨hplain, hwf, hdepth⟩, htext⟩
    have hall : (anyHooks : Hooks κ).BuildsAll := fun _ => rfl
    -- one text is read once, so it says the same of both
    have hv := scans_reread hall v h (Nat.le_max_left v.depth w.depth)
    have hw := scans_reread hall w htext (Nat.le_max_right v.depth w.depth)
    have hsame : reread v = reread w := by
      have hrun := hv.scan text.length [] (le_refl _) (Or.inl rfl)
      rw [hw.scan text.length [] (le_refl _) (Or.inl rfl)] at hrun
      exact (Prod.mk.inj (Option.some.inj (Except.ok.inj hrun))).1.symm
    refine ⟨keysOrdered_of_reread v hplain hwf (hsame.trans (reread_of_plain w hplain)), ?_⟩
    rw [← depth_reread v, hsame, depth_reread w]
    exact hdepth
  · rintro ⟨hordered, hdepth⟩
    exact ⟨reread v, built_reread hordered hdepth, dumps_reread v hordered h⟩

end Python.Json
