import CypherSyntax.Protocol
import CypherSyntax.Python.Json.Object

/-!
# Names of participants

Envelopes, handshake messages and identities each check names by the same rules, with their own
exceptions and their own words for the name. `validateName` is the common check.

Results:
* `validateName_ok`: what the check accepts, whichever module makes it.
* `ValidName.encodeString_size`: how large a valid name can get in JSON.
-/

namespace CypherSyntax

open Python

/-- A literal field name. -/
def key (name : String) : Key := .str (lit name)

variable [UnicodeData]

/-- A name every module accepts. -/
structure ValidName (name : Str) : Prop where
  encodes : ∃ encoded, encodeUtf8 name = some encoded ∧ encoded ≠ [] ∧
    encoded.length ≤ maxParticipantNameBytes
  stripped : strip name = name
  printable : isPrintable name = true

/-- The checks of a name that the messages call `subject`. -/
def validateName (raiseType raiseValue : Str → PyError) (subject : Str) :
    Value → Except PyError Str
  | .str name =>
    match encodeUtf8 name with
    | none => .error (raiseValue (subject ++ lit " must contain valid Unicode"))
    | some encoded => do
      raiseIf (encoded = [] ∨ maxParticipantNameBytes < encoded.length)
        (raiseValue (subject ++ lit " must contain 1 to " ++ natText maxParticipantNameBytes ++
          lit " UTF-8 bytes"))
      raiseIf (name ≠ strip name)
        (raiseValue (subject ++ lit " must not contain surrounding whitespace"))
      raiseIf (isPrintable name = false)
        (raiseValue (subject ++ lit " must contain only printable characters"))
      return name
  | _ => .error (raiseType (subject ++ lit " must be a string"))

variable {raiseType raiseValue : Str → PyError} {subject : Str}

theorem validateName_ok {value : Value} {name : Str} :
    validateName raiseType raiseValue subject value = .ok name ↔
      value = .str name ∧ ValidName name := by
  unfold validateName
  split
  · rename_i s
    split
    · rename_i henc
      constructor
      · intro h
        cases h
      · rintro ⟨h, hv⟩
        cases h
        obtain ⟨encoded, hencoded, -⟩ := hv.encodes
        rw [henc] at hencoded
        cases hencoded
    · rename_i encoded henc
      simp only [bind_eq_ok, raiseIf_ok, pure_eq_ok, not_or, not_lt, not_not,
        Bool.not_eq_false]
      constructor
      · rintro ⟨-, ⟨hne, hlen⟩, -, hstrip, -, hprint, rfl⟩
        exact ⟨rfl, ⟨encoded, henc, hne, hlen⟩, hstrip.symm, hprint⟩
      · rintro ⟨h, hv⟩
        cases h
        obtain ⟨encoded', hencoded, hne, hlen⟩ := hv.encodes
        rw [henc] at hencoded
        cases hencoded
        exact ⟨(), ⟨hne, hlen⟩, (), hv.stripped.symm, (), hv.printable, rfl⟩
  · rename_i hne
    constructor
    · intro h
      cases h
    · rintro ⟨rfl, -⟩
      exact absurd rfl (hne name)

/-- A rejected name raises one of the two exceptions of the check. -/
theorem validateName_ensures {P : PyError → Prop} (htype : ∀ m, P (raiseType m))
    (hvalue : ∀ m, P (raiseValue m)) (subject : Str) (value : Value) :
    Ensures (fun _ => True) P (validateName raiseType raiseValue subject value) := by
  unfold validateName
  split
  · split
    · exact .error (hvalue _)
    · exact (Ensures.raiseIf fun _ => hvalue _).bind fun _ _ =>
        (Ensures.raiseIf fun _ => hvalue _).bind fun _ _ =>
          (Ensures.raiseIf fun _ => hvalue _).bind fun _ _ => trivial
  · exact .error (htype _)

namespace ValidName

variable {name : Str}

theorem noSurrogates (h : ValidName name) : NoSurrogates name := by
  obtain ⟨encoded, hencoded, -⟩ := h.encodes
  exact noSurrogates_of_encodeUtf8 hencoded

theorem isSome (h : ValidName name) : (encodeUtf8 name).isSome = true :=
  encodeUtf8_isSome.mpr h.noSurrogates

theorem utf8Size_le (h : ValidName name) : Json.utf8Size name ≤ maxParticipantNameBytes := by
  obtain ⟨encoded, hencoded, -, hlen⟩ := h.encodes
  exact (encodeUtf8_length hencoded).symm.trans_le hlen

/-- A valid name in JSON: at most `escapeFactor` bytes for each of its own, and two quotes. -/
theorem encodeString_size (h : ValidName name) (ea : Bool) :
    Json.utf8Size (Json.encodeString ea name) ≤
      Json.escapeFactor ea * maxParticipantNameBytes + 2 := by
  have hsize := Json.encodeString_size ea fun c hc => not_control_of_printable h.printable hc
  have hmul := Nat.mul_le_mul_left (Json.escapeFactor ea) h.utf8Size_le
  omega

end ValidName

end CypherSyntax
