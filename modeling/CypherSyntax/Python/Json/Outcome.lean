import CypherSyntax.Python.Ensures
import CypherSyntax.Python.Json.Loads

/-!
# What `json.loads` and `json.dumps` may do

On any text, `loads` returns a value that is plain (no tuple, `str` keys only), whose keys are
distinct and whose containers are no deeper than the recursion limit (`Built`), or raises one of
`JSONDecodeError`, `ValueError`, `RecursionError` or what a hook raised (`loads_ensures`). Each
function of the scanner has its own postcondition, proved from those of the functions it calls; the
scanner itself by induction on its fuel. On any value, `dumps` returns a text or raises `TypeError`
or `ValueError` (`dumps_ensures`).
-/

namespace Python.Json

variable {κ : Type}

/-- A class of exceptions with those the decoder raises by itself. -/
structure DecoderErrors (P : Exc κ → Prop) : Prop where
  json : ∀ m, P (.builtin .jsonDecodeError m)
  value : ∀ m, P (.builtin .valueError m)
  recursion : ∀ m, P (.builtin .recursionError m)

/-- What is read where so many nested containers are left. -/
structure Built (depth : Nat) (v : Value) : Prop where
  plain : v.plain = true
  wf : v.WF
  depth_le : v.depth ≤ depth

namespace Built

variable {depth : Nat}

theorem string (depth : Nat) (s : Str) : Built depth (.str s) := ⟨rfl, trivial, Nat.zero_le _⟩

theorem float (depth : Nat) (bits : BitVec 64) : Built depth (.float bits) :=
  ⟨rfl, trivial, Nat.zero_le _⟩

theorem list {xs : List Value} (h : ∀ x ∈ xs, Built depth x) : Built (depth + 1) (.list xs) where
  plain := plainList_iff.mpr fun x hx => (h x hx).plain
  wf := wfList_iff.mpr fun x hx => (h x hx).wf
  depth_le := Nat.succ_le_succ (depthList_le.mpr fun x hx => (h x hx).depth_le)

theorem dict {kvs : List (Key × Value)}
    (hdistinct : kvs.Pairwise fun p q => Key.eqPy p.1 q.1 = false)
    (h : ∀ kv ∈ kvs, (∃ s, kv.1 = .str s) ∧ Built depth kv.2) : Built (depth + 1) (.dict kvs) where
  plain := plainItems_iff.mpr fun kv hkv => ⟨(h kv hkv).1, (h kv hkv).2.plain⟩
  wf := ⟨hdistinct, wfItems_iff.mpr fun kv hkv => (h kv hkv).2.wf⟩
  depth_le := Nat.succ_le_succ (depthItems_le.mpr fun kv hkv => (h kv hkv).2.depth_le)

end Built

/-- The hooks build values from values of the depth below, or raise exceptions of the class. -/
structure Hooks.Ensures (hooks : Hooks κ) (P : Exc κ → Prop) : Prop where
  pairs : ∀ (depth : Nat) (l : List (Str × Value)), (∀ p ∈ l, Built depth p.2) →
    Python.Ensures (Built (depth + 1)) P (hooks.objectPairs l)
  constant : ∀ depth s, Python.Ensures (Built depth) P (hooks.parseConstant s)

variable {P : Exc κ → Prop}

theorem scanString_ensures (hP : DecoderErrors P) (pending : Option Nat) (s : Str) :
    Ensures (fun _ => True) P (scanString pending s) := by
  fun_induction scanString pending s with
  | case1 | case3 | case5 | case6 | case8 | case10 => exact hP.json _
  | case2 => trivial
  | case4 | case7 | case9 =>
    rename_i ih
    exact ih.bind fun _ _ => trivial

theorem scanConstant_ensures {hooks : Hooks κ} (hh : hooks.Ensures P) (depth : Nat) (s : Str) :
    Ensures (fun r => ∀ v t, r = some (v, t) → Built depth v) P (scanConstant hooks s) := by
  have hconst : ∀ w t, Ensures (fun r => ∀ v u, r = some (v, u) → Built depth v) P
      (do return some (← hooks.parseConstant w, t) : Except (Exc κ) (Option (Value × Str))) := by
    intro w t
    refine (hh.constant depth w).bind fun v hv => ?_
    rintro _ _ h
    obtain ⟨rfl, -⟩ := Prod.mk.inj (Option.some.inj h)
    exact hv
  unfold scanConstant
  split
  · exact hconst _ _
  · split
    · exact hconst _ _
    · split
      · exact hconst _ _
      · exact fun _ _ h => absurd h (by simp)

section Scanner

variable [Interpreter]

theorem readNumber_ensures (hP : DecoderErrors P) (depth : Nat) (integer fraction exponent : Str) :
    Ensures (Built depth) P (readNumber integer fraction exponent) := by
  unfold readNumber readInt
  refine .ite (fun _ => .float depth _) fun _ => .ite (fun _ => ?_) fun _ => hP.value _
  exact ⟨rfl, trivial, Nat.zero_le _⟩

theorem scanScalar_ensures (hP : DecoderErrors P) {hooks : Hooks κ} (hh : hooks.Ensures P)
    (depth : Nat) (s : Str) :
    Ensures (fun r => ∀ v t, r = some (v, t) → Built depth v) P (scanScalar hooks s) := by
  have hsome : ∀ (w : Value) (u : Str), Built depth w →
      Ensures (fun r => ∀ v t, r = some (v, t) → Built depth v) P (.ok (some (w, u))) := by
    intro w u hw v t h
    obtain ⟨rfl, -⟩ := Prod.mk.inj (Option.some.inj h)
    exact hw
  unfold scanScalar
  split
  · exact hsome _ _ ⟨rfl, trivial, Nat.zero_le _⟩
  · split
    · exact hsome _ _ ⟨rfl, trivial, Nat.zero_le _⟩
    · split
      · exact hsome _ _ ⟨rfl, trivial, Nat.zero_le _⟩
      · split
        · exact (readNumber_ensures hP depth _ _ _).bind fun v hv => hsome v _ hv
        · exact scanConstant_ensures hh depth s

/-- The three functions of the scanner, for any fuel and depth: induction on the fuel. -/
theorem scan_ensures (hP : DecoderErrors P) {hooks : Hooks κ} (hh : hooks.Ensures P) (fuel : Nat) :
    (∀ depth s, Ensures (fun r => ∀ v t, r = some (v, t) → Built depth v) P
      (scanOnce hooks fuel depth s)) ∧
    (∀ depth s, Ensures (fun r => ∀ p ∈ r.1, Built depth p.2) P
      (scanMembers hooks fuel depth s)) ∧
    ∀ depth s, Ensures (fun r => ∀ v ∈ r.1, Built depth v) P
      (scanElements hooks fuel depth s) := by
  induction fuel with
  | zero =>
    refine ⟨fun depth s => ?_, fun depth s => ?_, fun depth s => ?_⟩
    · rw [scanOnce]; exact hP.recursion _
    · rw [scanMembers]; exact hP.recursion _
    · rw [scanElements]; exact hP.recursion _
  | succ fuel ih =>
    obtain ⟨hOnce, hMembers, hElements⟩ := ih
    have hsome : ∀ (depth : Nat) (w : Value) (u : Str), Built depth w →
        Ensures (fun r => ∀ v t, r = some (v, t) → Built depth v) P (.ok (some (w, u))) := by
      intro depth w u hw v t h
      obtain ⟨rfl, -⟩ := Prod.mk.inj (Option.some.inj h)
      exact hw
    refine ⟨fun depth s => ?_, fun depth s => ?_, fun depth s => ?_⟩
    · cases s with
      | nil =>
        rw [scanOnce]
        exact fun _ _ h => absurd h (by simp)
      | cons c s =>
        rw [scanOnce.eq_def]
        refine .ite (fun _ => ?_) fun _ => .ite (fun _ => ?_) fun _ => .ite (fun _ => ?_) fun _ => ?_
        · exact (scanString_ensures hP none s).bind fun r _ =>
            hsome _ _ _ (.string _ _)
        · cases depth with
          | zero => exact hP.recursion _
          | succ depth =>
            simp only
            split
            · exact hP.json _
            · refine .ite (fun _ => ?_) fun _ => .ite (fun _ => ?_) fun _ => hP.json _
              · exact (hh.pairs depth [] fun _ h => absurd h List.not_mem_nil).bind fun v hv =>
                  hsome _ v _ hv
              · exact (hMembers depth _).bind fun r hr =>
                  (hh.pairs depth r.1 hr).bind fun v hv => hsome _ v _ hv
        · cases depth with
          | zero => exact hP.recursion _
          | succ depth =>
            simp only
            split
            · exact hP.json _
            · refine .ite (fun _ => hsome _ _ _ (.list fun _ h => absurd h List.not_mem_nil))
                fun _ => ?_
              exact (hElements depth _).bind fun r hr => hsome _ _ _ (.list hr)
        · exact scanScalar_ensures hP hh depth _
    · rw [scanMembers]
      refine (scanString_ensures hP none s).bind fun r _ => ?_
      obtain ⟨key, s⟩ := r
      simp only
      split
      · exact hP.json _
      · refine .ite (fun _ => hP.json _) fun _ => (hOnce depth _).bind fun r hr => ?_
        split
        · exact hP.json _
        · rename_i value t
          have hv : Built depth value := hr value t rfl
          split
          · exact hP.json _
          · refine .ite (fun _ => ?_) fun _ => .ite (fun _ => hP.json _) fun _ => ?_
            · exact List.forall_mem_cons.mpr ⟨hv, fun _ h => absurd h List.not_mem_nil⟩
            · split
              · exact hP.json _
              · refine .ite (fun _ => ?_) fun _ => .ite (fun _ => hP.json _) fun _ => hP.json _
                exact (hMembers depth _).bind fun r hr => List.forall_mem_cons.mpr ⟨hv, hr⟩
    · rw [scanElements]
      refine (hOnce depth s).bind fun r hr => ?_
      split
      · exact hP.json _
      · rename_i value t
        have hv : Built depth value := hr value t rfl
        split
        · exact hP.json _
        · refine .ite (fun _ => ?_) fun _ => .ite (fun _ => hP.json _) fun _ => ?_
          · exact List.forall_mem_cons.mpr ⟨hv, fun _ h => absurd h List.not_mem_nil⟩
          · exact (hElements depth _).bind fun r hr => List.forall_mem_cons.mpr ⟨hv, hr⟩

/-- **What `json.loads` may do on any text.** -/
theorem loads_ensures (hP : DecoderErrors P) {hooks : Hooks κ} (hh : hooks.Ensures P) (s : Str) :
    Ensures (Built Interpreter.recursionLimit) P (loads hooks s) := by
  unfold loads
  refine .ite (fun _ => hP.json _) fun _ => ((scan_ensures hP hh _).1 _ _).bind fun r hr => ?_
  split
  · exact hP.json _
  · rename_i value t
    exact .ite (fun _ => hr value t rfl) fun _ => hP.json _

end Scanner

/-! ## The encoder -/

/-- A class of exceptions with those the encoder raises. -/
structure EncoderErrors (P : Exc κ → Prop) : Prop where
  value : ∀ m, P (.builtin .valueError m)
  type : ∀ m, P (.builtin .typeError m)

section Encoder

variable [Interpreter]

theorem encodeInt_ensures (hP : EncoderErrors P) (i : Int) :
    Ensures (fun _ => True) P (encodeInt i) := by
  unfold encodeInt
  exact .ite (fun _ => trivial) fun _ => hP.value _

theorem encodeFloat_ensures (hP : EncoderErrors P) (allowNan : Bool) (bits : BitVec 64) :
    Ensures (fun _ => True) P (encodeFloat allowNan bits) := by
  unfold encodeFloat
  exact .ite (fun _ => trivial) fun _ => .ite (fun _ => hP.value _) fun _ =>
    .ite (fun _ => trivial) fun _ => .ite (fun _ => trivial) fun _ => trivial

theorem encodeKey_ensures (hP : EncoderErrors P) (allowNan : Bool) (key : Key) :
    Ensures (fun _ => True) P (encodeKey allowNan key) := by
  cases key with
  | str | bool | none => trivial
  | int i => exact encodeInt_ensures hP i
  | float bits => exact encodeFloat_ensures hP allowNan bits

theorem encodeItem_ensures (hP : EncoderErrors P) {ea an : Bool} {item : Key × Except (Exc κ) Str}
    (h : Ensures (fun _ => True) P item.2) : Ensures (fun _ => True) P (encodeItem ea an item) :=
  (encodeKey_ensures hP an item.1).bind fun _ _ => h.bind fun _ _ => trivial

theorem dumpsList_ensures {ea an : Bool} : ∀ {xs : List Value},
    (∀ x ∈ xs, Ensures (fun _ => True) P (dumps ea an x)) →
    Ensures (fun _ => True) P (dumpsList ea an xs)
  | [], _ => trivial
  | x :: xs, h => by
    rw [dumpsList]
    exact (h x List.mem_cons_self).bind fun _ _ =>
      (dumpsList_ensures fun y hy => h y (List.mem_cons_of_mem x hy)).bind fun _ _ => trivial

omit [Interpreter] in
theorem sortItems_ensures (hP : EncoderErrors P) {α : Type} (kvs : List (Key × α)) :
    Ensures (fun items => ∀ kv ∈ items, kv ∈ kvs) P (sortItems kvs) := by
  unfold sortItems
  exact .ite (fun _ _ hkv => mem_sortByKey.mp hkv) fun _ => hP.type _

/-- **What `json.dumps` may do on any value**: induction over the value. -/
theorem dumps_ensures (hP : EncoderErrors P) (ea an : Bool) (v : Value) :
    Ensures (fun _ => True) P (dumps ea an v) := by
  induction v using Value.induct with
  | none | bool | str => trivial
  | int i => exact encodeInt_ensures hP i
  | float bits => exact encodeFloat_ensures hP an bits
  | bytes => exact hP.type _
  | list xs ih | tuple xs ih =>
    rw [dumps]
    exact (dumpsList_ensures ih).bind fun _ _ => trivial
  | dict kvs ih =>
    rw [dumps]
    refine (sortItems_ensures hP _).bind fun items hitems =>
      (Ensures.mapM fun item hitem => encodeItem_ensures hP ?_).bind fun _ _ => trivial
    obtain ⟨kv, hkv, rfl⟩ := List.mem_map.mp (dumpsItems_eq ea an kvs ▸ hitems item hitem)
    exact ih kv hkv

end Encoder

end Python.Json
