import CypherSyntax.Instances
import CypherSyntax.Wire.Codec

/-!
# Associated data

The AEAD authenticates `associated_data` and nothing else of an envelope. It is the text of a flat
object, so it determines the metadata (`associatedData_eq_iff`): no quote, backslash, brace or
escape in a name can imitate the text around it, as what is written reads back as the names.

Results:
* `Metadata.items_inj`: the fields of a metadata determine it, in whatever order they come.
* `Metadata.Valid.associatedData_inj`: valid metadata with one text are equal.
-/

namespace CypherSyntax

open Python Json

/-! ## Metadata -/

namespace Metadata

/-- The keys of a metadata are distinct. -/
theorem items_distinct (m : Metadata) : m.items.Pairwise fun p q => p.1 ≠ q.1 :=
  (List.pairwise_append.mp (envelopeItems_distinct m [])).1

theorem eq_iff {m n : Metadata} : m = n ↔ Value.int m.version = .int n.version ∧
    Value.str m.suite = .str n.suite ∧ Value.str m.sender = .str n.sender ∧
    Value.str m.recipient = .str n.recipient ∧ Value.int m.sequence = .int n.sequence := by
  cases m
  cases n
  simp only [mk.injEq, Value.int.injEq, Value.str.injEq]

/-- The fields of a metadata determine it. -/
theorem items_inj {m n : Metadata} (h : m.items.Perm n.items) : m = n := by
  have hfield : ∀ {k : Key} {v w : Value}, (k, v) ∈ m.items → (k, w) ∈ n.items → v = w := by
    intro k v w hv hw
    have hlookup := lookup_of_mem n.items_distinct (h.mem_iff.mp hv)
    exact Option.some.inj (hlookup.symm.trans (lookup_of_mem n.items_distinct hw))
  refine eq_iff.mpr ⟨hfield (k := key "v") ?_ ?_, hfield (k := key "suite") ?_ ?_,
    hfield (k := key "sender") ?_ ?_, hfield (k := key "recipient") ?_ ?_,
    hfield (k := key "sequence") ?_ ?_⟩ <;> simp [items]

variable [Interpreter]

/-- **Valid metadata with one text are equal.** -/
theorem Valid.associatedData_inj {m n : Metadata} (hm : m.Valid) (hn : n.Valid) {data : Bytes}
    (hdata : m.associatedData = .ok data) (hdata' : n.associatedData = .ok data) : m = n := by
  obtain ⟨text, htext, hencode⟩ := bind_eq_ok.mp hdata
  obtain ⟨text', htext', hencode'⟩ := bind_eq_ok.mp hdata'
  obtain rfl : text = text' := encodeUtf8_inj (encode_ok.mp hencode) (encode_ok.mp hencode')
  have hbuilds : MessageEnvelope.hooks.Builds := builds_of_rejectDuplicateKeys _ _
  exact items_inj (perm_of_dumps hbuilds hm.flat hn.flat m.items_distinct n.items_distinct htext
    htext')

end Metadata

/-! ## Envelopes -/

section Envelopes

variable [Interpreter]

/-- The associated data of an envelope is that of the metadata that was validated. -/
theorem associatedData_of_metadata {e : MessageEnvelope} {m : Metadata}
    (h : e.validateMetadata = .ok m) : e.associatedData = m.associatedData := by
  unfold MessageEnvelope.associatedData
  rw [h]
  rfl

/-- **The associated data determines the metadata.** Any two envelopes with valid metadata have
associated data, and it is the same exactly when their metadata is, whatever the ciphertexts. -/
theorem associatedData_eq_iff {e f : MessageEnvelope} {m n : Metadata}
    (he : e.validateMetadata = .ok m) (hf : f.validateMetadata = .ok n) :
    ∃ data data', e.associatedData = .ok data ∧ f.associatedData = .ok data' ∧
      (data = data' ↔ e.version = f.version ∧ e.suite = f.suite ∧ e.sender = f.sender ∧
        e.recipient = f.recipient ∧ e.sequence = f.sequence) ∧
      ∀ ciphertext : Value, { e with ciphertext := ciphertext }.associatedData = .ok data := by
  obtain ⟨he', hm⟩ := validateMetadata_ok.mp he
  obtain ⟨hf', hn⟩ := validateMetadata_ok.mp hf
  obtain ⟨data, hdata⟩ := hm.associatedData
  obtain ⟨data', hdata'⟩ := hn.associatedData
  refine ⟨data, data', (associatedData_of_metadata he).trans hdata,
    (associatedData_of_metadata hf).trans hdata', ?_, ?_⟩
  · have hmetadata : data = data' ↔ m = n := by
      constructor
      · rintro rfl
        exact hm.associatedData_inj hn hdata hdata'
      · rintro rfl
        exact Except.ok.inj (hdata.symm.trans hdata')
    rw [hmetadata, he', hf']
    exact Metadata.eq_iff
  · intro ciphertext
    have hreplaced : { e with ciphertext := ciphertext }.validateMetadata = .ok m :=
      validateMetadata_ok.mpr ⟨by rw [he'], hm⟩
    exact (associatedData_of_metadata hreplaced).trans hdata

end Envelopes

section Samples

/-- An interpreter for which U+1F600 is printable too. -/
local instance smileInterpreter : Interpreter :=
  { asciiInterpreter with
    printable := fun c => decide (0x20 ≤ c.val ∧ c.val < 0x7F) || c == 0x1F600
    printable_ascii := by
      intro c hc
      have hne : c ≠ 0x1F600 := by
        rintro rfl
        exact absurd hc (by decide)
      rw [beq_eq_false_iff_ne.mpr hne, Bool.or_false] }

/-- An envelope from that sender to `"bob"`, quotes included. -/
def quotedEnvelope (sender : Str) : MessageEnvelope :=
  ⟨.int 1, .str (lit "CHACHA20_POLY1305"), .str sender, .str (lit "\"bob\""), .int 7, .none⟩

/-- A sender whose name is the escape of U+1F600 is not taken for the sender U+1F600. -/
theorem associatedData_eq_iff_escape : ∃ data data',
    (quotedEnvelope [0x1F600]).associatedData = .ok data ∧
      (quotedEnvelope (lit "\\ud83d\\ude00")).associatedData = .ok data' ∧ data ≠ data' := by
  have he : (quotedEnvelope [0x1F600]).validateMetadata =
      .ok ⟨1, lit "CHACHA20_POLY1305", [0x1F600], lit "\"bob\"", 7⟩ := by decide +kernel
  have hf : (quotedEnvelope (lit "\\ud83d\\ude00")).validateMetadata =
      .ok ⟨1, lit "CHACHA20_POLY1305", lit "\\ud83d\\ude00", lit "\"bob\"", 7⟩ := by decide +kernel
  obtain ⟨data, data', hdata, hdata', hiff, -⟩ := associatedData_eq_iff he hf
  refine ⟨data, data', hdata, hdata', fun h => ?_⟩
  have hsender : Value.str [0x1F600] = .str (lit "\\ud83d\\ude00") := (hiff.mp h).2.2.1
  exact absurd (Value.str.inj hsender) (by decide)

end Samples

end CypherSyntax
