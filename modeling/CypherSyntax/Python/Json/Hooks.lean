import CypherSyntax.Python.Json.Outcome
import CypherSyntax.Python.Json.RoundTrip

/-!
# Hooks for `json.loads`

`rejectDuplicateKeys` is the `object_pairs_hook` that builds a `dict` and raises on a repeated
key; the exception is a parameter. `rejectingHooks` adds a `parse_constant` that raises, and
`defaultConstant` is what `json.loads` does without one.

Results:
* `rejectDuplicateKeys_ok`: distinct keys give the dictionary of the pairs.
* `builds_of_rejectDuplicateKeys`, `ensures_of_rejectDuplicateKeys`: such hooks meet what
  `loads_dumps` and `loads_ensures` ask of them.
-/

namespace Python.Json

variable {κ : Type}

/-! ## The hooks -/

/-- The loop of the hook, with the items collected so far. -/
def collectPairs (duplicate : Str → Exc κ) (result : List (Key × Value)) :
    List (Str × Value) → Except (Exc κ) Value
  | [] => .ok (.dict result)
  | (key, value) :: pairs =>
    if (result.lookup (.str key)).isSome then .error (duplicate key)
    else collectPairs duplicate (result ++ [(.str key, value)]) pairs

/-- The `object_pairs_hook` that raises on a repeated key. -/
def rejectDuplicateKeys (duplicate : Str → Exc κ) (pairs : List (Str × Value)) :
    Except (Exc κ) Value :=
  collectPairs duplicate [] pairs

/-- `NaN`, `Infinity` and `-Infinity` as floats, without `parse_constant`. -/
def defaultConstant (name : Str) : Except (Exc κ) Value :=
  if name = lit "NaN" then .ok (.float 0x7FF8000000000000#64)
  else if name = lit "Infinity" then .ok (.float 0x7FF0000000000000#64)
  else .ok (.float 0xFFF0000000000000#64)

/-- Hooks that raise on a repeated key and on a constant. -/
def rejectingHooks (duplicate nonfinite : Str → Exc κ) : Hooks κ where
  objectPairs := rejectDuplicateKeys duplicate
  parseConstant name := .error (nonfinite name)

/-! ## Distinct keys -/

theorem lookup_append_isNone {kvs : List (Key × Value)} {k l : Key} {v : Value}
    (h : kvs.lookup k = none) (hne : l ≠ k) : (kvs ++ [(l, v)]).lookup k = none := by
  rw [List.lookup_append, h, Option.none_or, List.lookup_cons,
    beq_eq_false_iff_ne.mpr (Ne.symm hne)]
  rfl

theorem collectPairs_ok (duplicate : Str → Exc κ) : ∀ {pairs : List (Str × Value)}
    {result : List (Key × Value)}, pairs.Pairwise (fun p q => p.1 ≠ q.1) →
    (∀ p ∈ pairs, result.lookup (.str p.1) = none) →
    collectPairs duplicate result pairs = .ok (.dict (result ++ pairs.map fun p => (.str p.1, p.2)))
  | [], result, _, _ => by simp [collectPairs]
  | (key, value) :: pairs, result, hd, hn => by
    obtain ⟨hhead, hd⟩ := List.pairwise_cons.mp hd
    have hkey := hn _ List.mem_cons_self
    have hrest : ∀ p ∈ pairs, (result ++ [(Key.str key, value)]).lookup (.str p.1) = none :=
      fun p hp => lookup_append_isNone (hn p (List.mem_cons_of_mem _ hp))
        fun h => hhead p hp (Key.str.inj h)
    rw [collectPairs, hkey, if_neg (by simp), collectPairs_ok duplicate hd hrest]
    simp

theorem rejectDuplicateKeys_ok (duplicate : Str → Exc κ) {pairs : List (Str × Value)}
    (hd : pairs.Pairwise fun p q => p.1 ≠ q.1) :
    rejectDuplicateKeys duplicate pairs = .ok (.dict (pairs.map fun p => (.str p.1, p.2))) :=
  collectPairs_ok duplicate hd fun _ _ => rfl

theorem builds_of_rejectDuplicateKeys (duplicate : Str → Exc κ)
    (constant : Str → Except (Exc κ) Value) :
    Hooks.Builds ⟨rejectDuplicateKeys duplicate, constant⟩ :=
  fun _ hd => rejectDuplicateKeys_ok duplicate hd

/-! ## Outcomes -/

variable {P : Exc κ → Prop}

/-- The keys collected so far are strings, and the next one differs from them. -/
theorem eqPy_of_lookup {result : List (Key × Value)} {key : Str}
    (hkeys : ∀ kv ∈ result, ∃ s, kv.1 = .str s) (h : result.lookup (.str key) = none) :
    ∀ kv ∈ result, Key.eqPy kv.1 (.str key) = false := by
  intro kv hkv
  obtain ⟨s, hs⟩ := hkeys kv hkv
  rw [hs, Key.eqPy_str, beq_eq_false_iff_ne]
  rintro rfl
  have hne := List.lookup_eq_none_iff.mp h kv hkv
  rw [hs] at hne
  exact absurd hne (by simp)

theorem collectPairs_ensures {duplicate : Str → Exc κ} (hdup : ∀ key, P (duplicate key))
    {depth : Nat} : ∀ {pairs : List (Str × Value)} {result : List (Key × Value)},
      (∀ p ∈ pairs, Built depth p.2) →
      result.Pairwise (fun p q => Key.eqPy p.1 q.1 = false) →
      (∀ kv ∈ result, (∃ s, kv.1 = .str s) ∧ Built depth kv.2) →
      Ensures (Built (depth + 1)) P (collectPairs duplicate result pairs)
  | [], _, _, hd, hr => .dict hd hr
  | (key, value) :: pairs, result, hp, hd, hr => by
    rw [collectPairs]
    refine .ite (fun _ => hdup key) fun hnew => collectPairs_ensures hdup
      (fun p h => hp p (List.mem_cons_of_mem _ h)) ?_ fun kv hkv => ?_
    · rw [Option.not_isSome_iff_eq_none] at hnew
      refine List.pairwise_append.mpr ⟨hd, List.pairwise_singleton _ _, fun kv hkv p hp => ?_⟩
      obtain rfl := List.mem_singleton.mp hp
      exact eqPy_of_lookup (fun kv hkv => (hr kv hkv).1) hnew kv hkv
    · rcases List.mem_append.mp hkv with hkv | hkv
      · exact hr kv hkv
      · obtain rfl := List.mem_singleton.mp hkv
        exact ⟨⟨key, rfl⟩, hp _ List.mem_cons_self⟩

theorem ensures_of_rejectDuplicateKeys {duplicate : Str → Exc κ}
    {constant : Str → Except (Exc κ) Value} (hdup : ∀ key, P (duplicate key))
    (hconst : ∀ depth name, Ensures (Built depth) P (constant name)) :
    Hooks.Ensures ⟨rejectDuplicateKeys duplicate, constant⟩ P where
  pairs _ _ hp := collectPairs_ensures hdup hp .nil fun _ h => absurd h List.not_mem_nil
  constant := hconst

theorem defaultConstant_ensures (depth : Nat) (name : Str) :
    Ensures (Built depth) P (defaultConstant name) := by
  unfold defaultConstant
  exact .ite (fun _ => .float _ _) fun _ => .ite (fun _ => .float _ _) fun _ => .float _ _

end Python.Json
