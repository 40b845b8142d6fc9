import CypherSyntax.Python.Value

/-!
# Length-prefixed fields

A frame is a value behind its length in four big-endian bytes. `encodeField` is
`len(value).to_bytes(4, "big") + value`, and `joinFields` joins a tag and the frames of a list of
values.

Results:
* `frames_inj`: the frames of a list of short values determine the list.
* `joinFields_ok`, `joinFields_inj`: the same for the joined fields behind one tag.
-/

namespace Python

variable {κ : Type}

/-- A value behind its length. -/
def frame (value : Bytes) : Bytes := beBytes 4 value.length ++ value

def frames (values : List Bytes) : Bytes := values.flatMap frame

/-- A value whose length fits in four bytes. -/
def Short (value : Bytes) : Prop := value.length < 2 ^ 32

/-- `len(value).to_bytes(4, "big") + value` -/
def encodeField (value : Bytes) : Except (Exc κ) Bytes :=
  match toBytesBig 4 value.length with
  | some length => .ok (length ++ value)
  | none => .error (.builtin .overflowError (lit "int too big to convert"))

/-- A tag and the fields of the values, joined. -/
def joinFields (tag : Bytes) (values : List Bytes) : Except (Exc κ) Bytes := do
  return tag ++ (← values.mapM encodeField).flatten

/-! ## Frames determine their values -/

/-- A frame is read off the front of what follows it. -/
theorem frame_append_inj {v w s t : Bytes} (hv : Short v) (hw : Short w)
    (h : frame v ++ s = frame w ++ t) : v = w ∧ s = t := by
  unfold frame at h
  rw [List.append_assoc, List.append_assoc] at h
  have hprefix : (beBytes 4 v.length).length = (beBytes 4 w.length).length := by
    rw [beBytes_length, beBytes_length]
  obtain ⟨hlen, h⟩ := List.append_inj h hprefix
  exact List.append_inj h (beBytes_inj hv hw hlen)

theorem frame_ne_nil (v : Bytes) : frame v ≠ [] := by
  intro h
  have hlen := congrArg List.length h
  rw [frame, List.length_append, beBytes_length, List.length_nil] at hlen
  omega

/-- **The frames of short values determine the values.** -/
theorem frames_inj : ∀ {vs ws : List Bytes}, (∀ v ∈ vs, Short v) → (∀ w ∈ ws, Short w) →
    frames vs = frames ws → vs = ws
  | [], [], _, _, _ => rfl
  | [], w :: ws, _, _, h => by
    have hnil := List.append_eq_nil_iff.mp (h.symm.trans rfl : frame w ++ frames ws = [])
    exact absurd hnil.1 (frame_ne_nil w)
  | v :: vs, [], _, _, h => by
    have hnil := List.append_eq_nil_iff.mp (h.trans rfl : frame v ++ frames vs = [])
    exact absurd hnil.1 (frame_ne_nil v)
  | v :: vs, w :: ws, hvs, hws, h => by
    obtain ⟨hv, hvs'⟩ := List.forall_mem_cons.mp hvs
    obtain ⟨hw, hws'⟩ := List.forall_mem_cons.mp hws
    obtain ⟨hvw, htail⟩ := frame_append_inj hv hw (h : frame v ++ frames vs = frame w ++ frames ws)
    rw [hvw, frames_inj hvs' hws' htail]

/-! ## Joined fields -/

theorem encodeField_ok {value : Bytes} (h : Short value) :
    encodeField (κ := κ) value = .ok (frame value) := by
  unfold encodeField toBytesBig
  rw [if_pos (show value.length < 256 ^ 4 from h)]
  rfl

theorem mapM_encodeField : ∀ {values : List Bytes}, (∀ v ∈ values, Short v) →
    values.mapM (encodeField (κ := κ)) = .ok (values.map frame)
  | [], _ => rfl
  | v :: values, h => by
    obtain ⟨hv, hvs⟩ := List.forall_mem_cons.mp h
    rw [List.mapM_cons, encodeField_ok hv, ok_bind, mapM_encodeField hvs]
    rfl

theorem joinFields_ok {tag : Bytes} {values : List Bytes} (h : ∀ v ∈ values, Short v) :
    joinFields (κ := κ) tag values = .ok (tag ++ frames values) := by
  unfold joinFields
  rw [mapM_encodeField h, ok_bind, frames, List.flatMap_def]
  rfl

/-- Only short values are joined. -/
theorem short_of_joinFields {tag : Bytes} {values : List Bytes} {data : Bytes}
    (h : joinFields (κ := κ) tag values = .ok data) : ∀ v ∈ values, Short v := by
  obtain ⟨fields, hfields, -⟩ := bind_eq_ok.mp h
  intro v hv
  obtain ⟨field, hfield⟩ := forall₂_exists (mapM_eq_ok hfields) hv
  unfold encodeField toBytesBig at hfield
  by_cases hshort : v.length < 256 ^ 4
  · exact hshort
  · rw [if_neg hshort] at hfield
    cases hfield

/-- Joined fields determine their values. -/
theorem joinFields_inj {tag : Bytes} {vs ws : List Bytes} (hvs : ∀ v ∈ vs, Short v)
    (hws : ∀ w ∈ ws, Short w) (h : tag ++ frames vs = tag ++ frames ws) : vs = ws :=
  frames_inj hvs hws (List.append_cancel_left h)

end Python
