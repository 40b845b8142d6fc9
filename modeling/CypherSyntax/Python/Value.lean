import CypherSyntax.Python.Numeral
import Mathlib.Data.List.Forall2
import Mathlib.Data.List.Sort

/-!
# Values and exceptions

`Value` is a Python object built from `None`, `bool`, `int`, `float`, `str`, `bytes`, `list`,
`tuple` and `dict`. A `float` is its IEEE-754 bit pattern. A `dict` is the list of its items in
insertion order, and its keys are the scalars `Key`; `Value.WF` says that no two keys of one
`dict` are equal, where Python takes `1`, `1.0` and `True` as one key.

`Value.same` is equality that also distinguishes types (`1` from `True`, a `list` from a `tuple`)
and that, as `dict.__eq__` does, ignores the order of items.

Results:
* `Value.induct`: induction over nested values.
* `same_sorted`: sorting the items of every nested `dict` gives the same value.
-/

namespace Python

/-! ## Exceptions -/

/-- The exception classes of the language and its standard library. -/
inductive Builtin where
  | typeError | valueError | unicodeEncodeError | unicodeDecodeError | jsonDecodeError
  | overflowError | runtimeError | recursionError | osError | keyError
  deriving DecidableEq, Repr

/-- The subclasses of `ValueError`. -/
def Builtin.isValueError : Builtin → Bool
  | .valueError | .unicodeEncodeError | .unicodeDecodeError | .jsonDecodeError => true
  | _ => false

/-- A raised exception: a built-in one or one of the program's own classes `κ`. -/
inductive Exc (κ : Type) where
  | builtin (cls : Builtin) (message : Str)
  | user (cls : κ) (message : Str)
  deriving DecidableEq

variable {κ α : Type}

/-- `except (TypeError, ValueError)` catches the exception. -/
def Exc.isTypeOrValueError : Exc κ → Bool
  | .builtin .typeError _ => true
  | .builtin c _ => c.isValueError
  | .user _ _ => false

def typeError (message : String) : Exc κ := .builtin .typeError (lit message)

def valueError (message : String) : Exc κ := .builtin .valueError (lit message)

def jsonDecodeError (message : String) : Exc κ := .builtin .jsonDecodeError (lit message)

/-! ### Sequencing -/

@[simp] theorem ok_bind {ε β : Type} (a : α) (f : α → Except ε β) : (Except.ok a >>= f) = f a := rfl

@[simp] theorem error_bind {ε β : Type} (e : ε) (f : α → Except ε β) :
    (Except.error e >>= f) = .error e := rfl

theorem ok_ne_error {ε : Type} {x : Except ε α} {a : α} {e : ε} (h : x = .ok a) :
    ¬ x = .error e := by
  rintro rfl
  cases h

/-- A sequence that returns has a first part that returns. -/
theorem bind_eq_ok {ε β : Type} {x : Except ε α} {f : α → Except ε β} {b : β} :
    x >>= f = .ok b ↔ ∃ a, x = .ok a ∧ f a = .ok b := by
  cases x with
  | ok a => simp
  | error e => simp

theorem pure_eq_ok {ε : Type} {a b : α} : (pure a : Except ε α) = .ok b ↔ a = b := by
  show (Except.ok a : Except ε α) = .ok b ↔ _
  rw [Except.ok.injEq]

/-- `if c: raise e` -/
def raiseIf {ε : Type} (c : Prop) [Decidable c] (e : ε) : Except ε Unit :=
  if c then .error e else .ok ()

theorem raiseIf_ok {ε : Type} {c : Prop} [Decidable c] {e : ε} {u : Unit} :
    raiseIf c e = .ok u ↔ ¬ c := by
  unfold raiseIf
  split <;> simp_all

theorem raiseIf_error {ε : Type} {c : Prop} [Decidable c] {e e' : ε} :
    raiseIf c e = .error e' ↔ c ∧ e = e' := by
  unfold raiseIf
  split <;> simp_all

theorem raiseIf_neg {ε : Type} {c : Prop} [Decidable c] {e : ε} (h : ¬ c) :
    raiseIf c e = .ok () := raiseIf_ok.mpr h

/-- Whether a call raises the exception; the values it may return need no decidable equality. -/
def raises {ε : Type} [DecidableEq ε] (x : Except ε α) (e : ε) : Bool :=
  match x with
  | .ok _ => false
  | .error e' => e' == e

theorem raises_eq_true {ε : Type} [DecidableEq ε] {x : Except ε α} {e : ε} :
    raises x e = true ↔ x = .error e := by
  cases x <;> simp [raises]

/-- The returned value, with the call that returned it. -/
def attach {ε : Type} (x : Except ε α) : Except ε { a : α // x = .ok a } :=
  match x with
  | .ok a => .ok ⟨a, rfl⟩
  | .error e => .error e

theorem attach_ok {ε : Type} {x : Except ε α} {a : { a : α // x = .ok a }} :
    attach x = .ok a ↔ x = .ok a.val := by
  refine ⟨fun _ => a.property, fun h => ?_⟩
  obtain ⟨a, rfl⟩ := a
  rfl

/-- Going on from a call with its value, or from the value with the call. -/
theorem attach_bind_eq_ok {ε β : Type} {x : Except ε α} {f : { a : α // x = .ok a } → Except ε β}
    {b : β} : attach x >>= f = .ok b ↔ ∃ a, ∃ h : x = .ok a, f ⟨a, h⟩ = .ok b := by
  rw [bind_eq_ok]
  constructor
  · rintro ⟨⟨a, h⟩, -, hf⟩
    exact ⟨a, h, hf⟩
  · rintro ⟨a, h, hf⟩
    exact ⟨⟨a, h⟩, attach_ok.mpr h, hf⟩

/-- A loop that returns has returned for every element. -/
theorem mapM_eq_ok {ε β : Type} {f : α → Except ε β} : ∀ {xs : List α} {ys : List β},
    xs.mapM f = .ok ys → List.Forall₂ (fun x y => f x = .ok y) xs ys
  | [], ys, h => by
    obtain rfl := Except.ok.inj (List.mapM_nil.symm.trans h)
    exact .nil
  | x :: xs, ys, h => by
    rw [List.mapM_cons, bind_eq_ok] at h
    obtain ⟨y, hy, h⟩ := h
    obtain ⟨ys', hys, h⟩ := bind_eq_ok.mp h
    obtain rfl := Except.ok.inj h
    exact .cons hy (mapM_eq_ok hys)

theorem forall₂_exists {α β : Type} {R : α → β → Prop} {l : List α} {u : List β}
    (h : List.Forall₂ R l u) {a : α} (ha : a ∈ l) : ∃ b, R a b := by
  induction h with
  | nil => cases ha
  | cons hab _ ih =>
    rcases List.mem_cons.mp ha with rfl | ha
    · exact ⟨_, hab⟩
    · exact ih ha

/-! ## Keys and values -/

/-- A scalar dictionary key. -/
inductive Key where
  | none
  | bool (b : Bool)
  | int (i : Int)
  | float (bits : BitVec 64)
  | str (s : Str)
  deriving DecidableEq

/-- A Python object. -/
inductive Value where
  | none
  | bool (b : Bool)
  | int (i : Int)
  | float (bits : BitVec 64)
  | str (s : Str)
  | bytes (b : Bytes)
  | list (xs : List Value)
  | tuple (xs : List Value)
  | dict (items : List (Key × Value))

/-! ## Floats -/

/-- Neither an infinity nor a NaN. -/
def isFinite (bits : BitVec 64) : Bool := bits.toNat / 2 ^ 52 % 2 ^ 11 != 2 ^ 11 - 1

/-- A finite float times `2 ^ 1074`, which is an integer. -/
def scaledFloat (bits : BitVec 64) : Int :=
  let e := bits.toNat / 2 ^ 52 % 2 ^ 11
  let m := bits.toNat % 2 ^ 52
  let magnitude : Nat := if e = 0 then m else (2 ^ 52 + m) * 2 ^ (e - 1)
  if bits.toNat < 2 ^ 63 then magnitude else -magnitude

/-- The number a key holds, times `2 ^ 1074`; `none` for `str` and `None`. -/
def Key.number : Key → Option Int
  | .bool b => some (if b then 2 ^ 1074 else 0)
  | .int i => some (i * 2 ^ 1074)
  | .float bits => some (scaledFloat bits)
  | .none | .str _ => .none

/-- `==` on keys: numbers by value, whatever their types. -/
def Key.eqPy (k l : Key) : Bool := k == l || (k.number.isSome && k.number == l.number)

@[simp] theorem Key.eqPy_str (s t : Str) : Key.eqPy (.str s) (.str t) = (s == t) := by
  simp only [Key.eqPy, Key.number, Option.isSome_none, Bool.false_and, Bool.or_false]
  by_cases h : s = t
  · simp [h]
  · simp [h]

/-! ## Structural recursion over nested values -/

/-- Induction over nested values. -/
@[elab_as_elim]
theorem Value.induct {P : Value → Prop} (none : P .none) (bool : ∀ b, P (.bool b))
    (int : ∀ i, P (.int i)) (float : ∀ f, P (.float f)) (str : ∀ s, P (.str s))
    (bytes : ∀ b, P (.bytes b)) (list : ∀ xs, (∀ x ∈ xs, P x) → P (.list xs))
    (tuple : ∀ xs, (∀ x ∈ xs, P x) → P (.tuple xs))
    (dict : ∀ kvs, (∀ kv ∈ kvs, P kv.2) → P (.dict kvs)) (v : Value) : P v :=
  Value.rec (motive_1 := P) (motive_2 := fun xs => ∀ x ∈ xs, P x)
    (motive_3 := fun kvs => ∀ kv ∈ kvs, P kv.2) (motive_4 := fun kv => P kv.2)
    none bool int float str bytes list tuple dict
    (fun _ h => absurd h List.not_mem_nil)
    (fun _ _ hx hxs => List.forall_mem_cons.mpr ⟨hx, hxs⟩)
    (fun _ h => absurd h List.not_mem_nil)
    (fun _ _ hx hxs => List.forall_mem_cons.mpr ⟨hx, hxs⟩)
    (fun _ _ h => h) v

mutual

/-- No two keys of a nested dictionary are equal. -/
def Value.WF : Value → Prop
  | .list xs => wfList xs
  | .tuple xs => wfList xs
  | .dict kvs => kvs.Pairwise (fun p q => Key.eqPy p.1 q.1 = false) ∧ wfItems kvs
  | _ => True

def wfList : List Value → Prop
  | [] => True
  | x :: xs => x.WF ∧ wfList xs

def wfItems : List (Key × Value) → Prop
  | [] => True
  | (_, v) :: kvs => v.WF ∧ wfItems kvs

end

mutual

/-- Every key of a nested dictionary is a `str`, and no `tuple` is nested anywhere. -/
def Value.plain : Value → Bool
  | .list xs => plainList xs
  | .tuple _ => false
  | .dict kvs => plainItems kvs
  | _ => true

def plainList : List Value → Bool
  | [] => true
  | x :: xs => x.plain && plainList xs

def plainItems : List (Key × Value) → Bool
  | [] => true
  | (.str _, v) :: kvs => v.plain && plainItems kvs
  | _ :: _ => false

end

mutual

/-- How many containers are nested in one another. -/
def Value.depth : Value → Nat
  | .list xs => depthList xs + 1
  | .tuple xs => depthList xs + 1
  | .dict kvs => depthItems kvs + 1
  | _ => 0

def depthList : List Value → Nat
  | [] => 0
  | x :: xs => max x.depth (depthList xs)

def depthItems : List (Key × Value) → Nat
  | [] => 0
  | (_, v) :: kvs => max v.depth (depthItems kvs)

end

mutual

/-- Equality of values, types included, up to the order of dictionary items. -/
def Value.same : Value → Value → Bool
  | .none, w => match w with | .none => true | _ => false
  | .bool b, w => match w with | .bool c => b == c | _ => false
  | .int i, w => match w with | .int j => i == j | _ => false
  | .float f, w => match w with | .float g => f == g | _ => false
  | .str s, w => match w with | .str t => s == t | _ => false
  | .bytes b, w => match w with | .bytes c => b == c | _ => false
  | .list xs, w => match w with | .list ys => sameList xs ys | _ => false
  | .tuple xs, w => match w with | .tuple ys => sameList xs ys | _ => false
  | .dict kvs, w =>
    match w with
    | .dict kws => kvs.length == kws.length && sameItems kvs kws
    | _ => false

def sameList : List Value → List Value → Bool
  | [], ys => match ys with | [] => true | _ => false
  | x :: xs, ys => match ys with | y :: ys => x.same y && sameList xs ys | [] => false

/-- Every item of the first dictionary is in the second. -/
def sameItems : List (Key × Value) → List (Key × Value) → Bool
  | [], _ => true
  | (k, v) :: kvs, kws =>
    (match kws.lookup k with | some w => v.same w | none => false) && sameItems kvs kws

end

theorem wfList_iff {xs : List Value} : wfList xs ↔ ∀ x ∈ xs, x.WF := by
  induction xs with
  | nil => simp [wfList]
  | cons x xs ih => rw [wfList, ih, List.forall_mem_cons]

theorem wfItems_iff {kvs : List (Key × Value)} : wfItems kvs ↔ ∀ kv ∈ kvs, kv.2.WF := by
  induction kvs with
  | nil => simp [wfItems]
  | cons kv kvs ih => rw [wfItems, ih, List.forall_mem_cons]

theorem plainList_iff {xs : List Value} : plainList xs = true ↔ ∀ x ∈ xs, x.plain = true := by
  induction xs with
  | nil => simp [plainList]
  | cons x xs ih => rw [plainList, Bool.and_eq_true, ih, List.forall_mem_cons]

theorem plainItems_iff {kvs : List (Key × Value)} :
    plainItems kvs = true ↔ ∀ kv ∈ kvs, (∃ s, kv.1 = .str s) ∧ kv.2.plain = true := by
  induction kvs with
  | nil => simp [plainItems]
  | cons kv kvs ih =>
    obtain ⟨k, v⟩ := kv
    rw [List.forall_mem_cons]
    cases k with
    | str s => rw [plainItems, Bool.and_eq_true, ih]; simp
    | _ => simp [plainItems]

theorem depthList_le {xs : List Value} {n : Nat} : depthList xs ≤ n ↔ ∀ x ∈ xs, x.depth ≤ n := by
  induction xs with
  | nil => simp [depthList]
  | cons x xs ih => rw [depthList, Nat.max_le, ih, List.forall_mem_cons]

theorem depthItems_le {kvs : List (Key × Value)} {n : Nat} :
    depthItems kvs ≤ n ↔ ∀ kv ∈ kvs, kv.2.depth ≤ n := by
  induction kvs with
  | nil => simp [depthItems]
  | cons kv kvs ih => rw [depthItems, Nat.max_le, ih, List.forall_mem_cons]

/-! ## Sorted dictionaries -/

/-- `<=` on strings: code points, lexicographically. -/
def strLe : Str → Str → Bool
  | [], _ => true
  | _ :: _, [] => false
  | a :: s, b :: t => a.val < b.val || (a.val == b.val && strLe s t)

/-- The order of sorted keys: strings by `strLe`, numbers by value. -/
def keyLe : Key → Key → Bool
  | .str s, .str t => strLe s t
  | k, l => k.number.getD 0 ≤ l.number.getD 0

theorem strLe_total : ∀ s t : Str, strLe s t = true ∨ strLe t s = true
  | [], _ => Or.inl rfl
  | _ :: _, [] => Or.inr rfl
  | a :: s, b :: t => by
    simp only [strLe, Bool.or_eq_true, Bool.and_eq_true, decide_eq_true_eq, beq_iff_eq]
    rcases Nat.lt_trichotomy a.val b.val with h | h | h
    · exact Or.inl (Or.inl h)
    · rcases strLe_total s t with ih | ih
      · exact Or.inl (Or.inr ⟨h, ih⟩)
      · exact Or.inr (Or.inr ⟨h.symm, ih⟩)
    · exact Or.inr (Or.inl h)

theorem strLe_trans : ∀ {s t u : Str}, strLe s t = true → strLe t u = true → strLe s u = true
  | [], _, _, _, _ => rfl
  | _ :: _, [], _, h, _ => absurd h (by simp [strLe])
  | _ :: _, _ :: _, [], _, h => absurd h (by simp [strLe])
  | a :: s, b :: t, c :: u, h1, h2 => by
    simp only [strLe, Bool.or_eq_true, Bool.and_eq_true, decide_eq_true_eq, beq_iff_eq] at h1 h2 ⊢
    rcases h1 with h1 | ⟨h1, h1'⟩ <;> rcases h2 with h2 | ⟨h2, h2'⟩
    · exact Or.inl (by omega)
    · exact Or.inl (by omega)
    · exact Or.inl (by omega)
    · exact Or.inr ⟨h1.trans h2, strLe_trans h1' h2'⟩

/-- The items of a dictionary, sorted by key. -/
def sortByKey (kvs : List (Key × α)) : List (Key × α) :=
  kvs.insertionSort fun p q => keyLe p.1 q.1 = true

theorem sortByKey_perm (kvs : List (Key × α)) : (sortByKey kvs).Perm kvs :=
  List.perm_insertionSort _ _

theorem mem_sortByKey {kvs : List (Key × α)} {kv : Key × α} : kv ∈ sortByKey kvs ↔ kv ∈ kvs :=
  (sortByKey_perm kvs).mem_iff

theorem orderedInsert_map {β : Type} (f : α → β) (kv : Key × α) : ∀ kvs : List (Key × α),
    (kvs.orderedInsert (fun p q => keyLe p.1 q.1 = true) kv).map (fun p => (p.1, f p.2)) =
      (kvs.map fun p => (p.1, f p.2)).orderedInsert (fun p q => keyLe p.1 q.1 = true)
        (kv.1, f kv.2)
  | [] => rfl
  | q :: kvs => by
    simp only [List.orderedInsert, List.map_cons]
    split
    · rfl
    · rw [List.map_cons, orderedInsert_map f kv kvs]

/-- Sorting looks at the keys only. -/
theorem sortByKey_map {β : Type} (f : α → β) : ∀ kvs : List (Key × α),
    (sortByKey kvs).map (fun p => (p.1, f p.2)) = sortByKey (kvs.map fun p => (p.1, f p.2))
  | [] => rfl
  | kv :: kvs => by
    have ih := sortByKey_map f kvs
    unfold sortByKey at ih ⊢
    rw [List.insertionSort_cons, orderedInsert_map, ih]
    rfl

theorem orderedInsert_sorted (kv : Key × α) : ∀ {kvs : List (Key × α)},
    (∃ s, kv.1 = .str s) → (∀ q ∈ kvs, ∃ s, q.1 = .str s) →
    kvs.Pairwise (fun p q => keyLe p.1 q.1 = true) →
    (kvs.orderedInsert (fun p q => keyLe p.1 q.1 = true) kv).Pairwise
      fun p q => keyLe p.1 q.1 = true
  | [], _, _, _ => List.pairwise_singleton _ _
  | q :: kvs, ⟨s, hs⟩, hk, hp => by
    obtain ⟨t, ht⟩ := hk q List.mem_cons_self
    simp only [List.orderedInsert]
    split
    · rename_i hle
      refine List.pairwise_cons.mpr ⟨fun r hr => ?_, hp⟩
      rcases List.mem_cons.mp hr with rfl | hr
      · exact hle
      · obtain ⟨u, hu⟩ := hk r (List.mem_cons_of_mem q hr)
        have hqr := (List.pairwise_cons.mp hp).1 r hr
        rw [hs, ht] at hle
        rw [ht, hu] at hqr
        rw [hs, hu]
        exact strLe_trans hle hqr
    · rename_i hle
      refine List.pairwise_cons.mpr ⟨fun r hr => ?_, orderedInsert_sorted kv ⟨s, hs⟩
        (fun r hr => hk r (List.mem_cons_of_mem q hr)) (List.pairwise_cons.mp hp).2⟩
      rcases (List.mem_orderedInsert _).mp hr with rfl | hr
      · rw [hs, ht] at hle ⊢
        exact (strLe_total s t).resolve_left hle
      · exact (List.pairwise_cons.mp hp).1 r hr

/-- Items with `str` keys come out sorted. -/
theorem sortByKey_sorted : ∀ {kvs : List (Key × α)}, (∀ q ∈ kvs, ∃ s, q.1 = .str s) →
    (sortByKey kvs).Pairwise fun p q => keyLe p.1 q.1 = true
  | [], _ => List.Pairwise.nil
  | kv :: _, h =>
    orderedInsert_sorted kv (h kv List.mem_cons_self)
      (fun q hq => h q (List.mem_cons_of_mem kv (mem_sortByKey.mp hq)))
      (sortByKey_sorted fun q hq => h q (List.mem_cons_of_mem kv hq))

/-- Sorting sorted items changes nothing. -/
theorem sortByKey_idem {kvs : List (Key × α)} (h : ∀ q ∈ kvs, ∃ s, q.1 = .str s) :
    sortByKey (sortByKey kvs) = sortByKey kvs :=
  (sortByKey_sorted h).insertionSort_eq

mutual

/-- The value with the items of every nested dictionary sorted by key. -/
def Value.sorted : Value → Value
  | .list xs => .list (sortedList xs)
  | .tuple xs => .tuple (sortedList xs)
  | .dict kvs => .dict (sortByKey (sortedItems kvs))
  | .none => .none
  | .bool b => .bool b
  | .int i => .int i
  | .float f => .float f
  | .str s => .str s
  | .bytes b => .bytes b

def sortedList : List Value → List Value
  | [] => []
  | x :: xs => x.sorted :: sortedList xs

def sortedItems : List (Key × Value) → List (Key × Value)
  | [] => []
  | (k, v) :: kvs => (k, v.sorted) :: sortedItems kvs

end

theorem sortedList_eq (xs : List Value) : sortedList xs = xs.map Value.sorted := by
  induction xs with
  | nil => rfl
  | cons x xs ih => rw [sortedList, ih, List.map_cons]

theorem sortedItems_eq (kvs : List (Key × Value)) :
    sortedItems kvs = kvs.map fun p => (p.1, p.2.sorted) := by
  induction kvs with
  | nil => rfl
  | cons kv kvs ih => rw [sortedItems, ih, List.map_cons]

/-- Distinct keys: looking an item's key up finds the item. -/
theorem lookup_of_mem : ∀ {kvs : List (Key × α)} {k : Key} {v : α},
    kvs.Pairwise (fun p q => p.1 ≠ q.1) → (k, v) ∈ kvs → kvs.lookup k = some v
  | [], _, _, _, h => absurd h List.not_mem_nil
  | (l, w) :: kvs, k, v, hp, h => by
    rw [List.lookup_cons]
    rcases List.mem_cons.mp h with h | h
    · obtain ⟨rfl, rfl⟩ := Prod.mk.inj h
      simp
    · have hne : l ≠ k := (List.pairwise_cons.mp hp).1 _ h
      rw [beq_eq_false_iff_ne.mpr (Ne.symm hne)]
      exact lookup_of_mem (List.pairwise_cons.mp hp).2 h

theorem Key.ne_of_eqPy {k l : Key} (h : Key.eqPy k l = false) : k ≠ l := by
  rintro rfl
  simp [Key.eqPy] at h

theorem sameItems_iff {kvs kws : List (Key × Value)} : sameItems kvs kws = true ↔
    ∀ kv ∈ kvs, ∃ w, kws.lookup kv.1 = some w ∧ kv.2.same w = true := by
  induction kvs with
  | nil => simp [sameItems]
  | cons kv kvs ih =>
    obtain ⟨k, v⟩ := kv
    rw [sameItems, Bool.and_eq_true, ih, List.forall_mem_cons]
    refine and_congr ?_ Iff.rfl
    cases kws.lookup k <;> simp

theorem sameList_map {f : Value → Value} : ∀ {xs : List Value},
    (∀ x ∈ xs, x.same (f x) = true) → sameList xs (xs.map f) = true
  | [], _ => rfl
  | x :: xs, h => by
    rw [List.map_cons, sameList, h x List.mem_cons_self,
      sameList_map fun y hy => h y (List.mem_cons_of_mem x hy)]
    rfl

/-- **Sorting every nested dictionary gives the same value.** -/
theorem same_sorted (v : Value) : v.WF → v.same v.sorted = true := by
  induction v using Value.induct with
  | none | bool | int | float | str | bytes => intro _; simp [Value.sorted, Value.same]
  | list xs ih =>
    intro h
    rw [Value.sorted, Value.same, sortedList_eq]
    exact sameList_map fun x hx => ih x hx (wfList_iff.mp h x hx)
  | tuple xs ih =>
    intro h
    rw [Value.sorted, Value.same, sortedList_eq]
    exact sameList_map fun x hx => ih x hx (wfList_iff.mp h x hx)
  | dict kvs ih =>
    rintro ⟨hd, hw⟩
    rw [Value.sorted, Value.same, sortedItems_eq]
    have hperm := sortByKey_perm (kvs.map fun p => (p.1, p.2.sorted))
    have hdist : (sortByKey (kvs.map fun p => (p.1, p.2.sorted))).Pairwise
        (fun p q => p.1 ≠ q.1) := by
      refine (hperm.pairwise_iff fun {_ _} h => Ne.symm h).mpr ?_
      rw [List.pairwise_map]
      exact hd.imp Key.ne_of_eqPy
    simp only [Bool.and_eq_true, beq_iff_eq]
    refine ⟨by rw [hperm.length_eq, List.length_map], sameItems_iff.mpr fun kv hkv => ?_⟩
    refine ⟨kv.2.sorted, lookup_of_mem hdist (mem_sortByKey.mpr ?_),
      ih kv hkv (wfItems_iff.mp hw kv hkv)⟩
    exact List.mem_map.mpr ⟨kv, hkv, rfl⟩

end Python
