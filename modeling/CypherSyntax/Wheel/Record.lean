import CypherSyntax.Wheel.Confined

/-!
# The RECORD of a wheel

What RECORD says of the wheel that it is in.

Results:
* `recordDigest_inj`: the text of a digest determines it.
* `record_pins_contents`: accepted wheels with one RECORD have the same files.
-/

namespace CypherSyntax

open Python Json

/-! ## Digests -/

theorem base64Digit_inj {m n : Nat} (hm : m < 64) (hn : n < 64)
    (h : base64Digit m = base64Digit n) : m = n := by
  have hall : ∀ m n : Fin 64, base64Digit m = base64Digit n → m = n := by decide +kernel
  exact congrArg Fin.val (hall ⟨m, hm⟩ ⟨n, hn⟩ h)

theorem base64Digit_ne_pad {n : Nat} (hn : n < 64) : base64Digit n ≠ 0x3D := by
  have hall : ∀ n : Fin 64, base64Digit n ≠ 0x3D := by decide +kernel
  exact hall ⟨n, hn⟩

/-- The digits without the padding. -/
def base64Digits : Bytes → Str
  | [] => []
  | [a] => [base64Digit (a.toNat / 4), base64Digit (a.toNat % 4 * 16)]
  | [a, b] => [base64Digit (a.toNat / 4), base64Digit (a.toNat % 4 * 16 + b.toNat / 16),
      base64Digit (b.toNat % 16 * 4)]
  | a :: b :: c :: rest =>
    base64Digit (a.toNat / 4) :: base64Digit (a.toNat % 4 * 16 + b.toNat / 16) ::
      base64Digit (b.toNat % 16 * 4 + c.toNat / 64) :: base64Digit (c.toNat % 64) ::
      base64Digits rest

theorem base64Digits_ne_pad (data : Bytes) : ∀ c ∈ base64Digits data, c ≠ 0x3D := by
  have hbyte : ∀ a : UInt8, a.toNat < 256 := UInt8.toNat_lt
  fun_induction base64Digits data with
  | case1 => exact fun _ h => absurd h List.not_mem_nil
  | case2 a =>
    have ha := hbyte a
    simp only [List.forall_mem_cons]
    exact ⟨base64Digit_ne_pad (by omega), base64Digit_ne_pad (by omega),
      fun _ h => absurd h List.not_mem_nil⟩
  | case3 a b =>
    have ha := hbyte a
    have hb := hbyte b
    simp only [List.forall_mem_cons]
    exact ⟨base64Digit_ne_pad (by omega), base64Digit_ne_pad (by omega),
      base64Digit_ne_pad (by omega), fun _ h => absurd h List.not_mem_nil⟩
  | case4 a b c rest ih =>
    have ha := hbyte a
    have hb := hbyte b
    have hc := hbyte c
    simp only [List.forall_mem_cons]
    exact ⟨base64Digit_ne_pad (by omega), base64Digit_ne_pad (by omega),
      base64Digit_ne_pad (by omega), base64Digit_ne_pad (by omega), ih⟩

/-- Base64 is the digits and padding. -/
theorem urlsafeBase64_eq (data : Bytes) :
    ∃ n, urlsafeBase64 data = base64Digits data ++ List.replicate n 0x3D := by
  fun_induction base64Digits data with
  | case1 => exact ⟨0, rfl⟩
  | case2 a => exact ⟨2, rfl⟩
  | case3 a b => exact ⟨1, rfl⟩
  | case4 a b c rest ih =>
    obtain ⟨n, hn⟩ := ih
    exact ⟨n, by rw [urlsafeBase64, hn]; rfl⟩

theorem rdropWhile_replicate {c : CodePoint} {text : Str} (h : ∀ d ∈ text, d ≠ c) (n : Nat) :
    (text ++ List.replicate n c).rdropWhile (· == c) = text := by
  induction n with
  | zero =>
    rw [List.replicate_zero, List.append_nil, List.rdropWhile_eq_self_iff]
    intro hne
    simpa using h _ (List.getLast_mem hne)
  | succ n ih =>
    rw [List.replicate_succ', ← List.append_assoc, List.rdropWhile_concat_pos _ _ _ (by simp), ih]

/-- **The digits determine the data.** -/
theorem base64Digits_inj {data data' : Bytes} (h : base64Digits data = base64Digits data') :
    data = data' := by
  have hbyte : ∀ a : UInt8, a.toNat < 256 := UInt8.toNat_lt
  fun_induction base64Digits data generalizing data' with
  | case1 =>
    rcases data' with _ | ⟨a', _ | ⟨b', _ | ⟨c', rest'⟩⟩⟩
    · rfl
    all_goals simp [base64Digits] at h
  | case2 a =>
    rcases data' with _ | ⟨a', _ | ⟨b', _ | ⟨c', rest'⟩⟩⟩
    · simp [base64Digits] at h
    · have ha := hbyte a
      have ha' := hbyte a'
      simp only [base64Digits, List.cons.injEq, and_true] at h
      have h₁ := base64Digit_inj (by omega) (by omega) h.1
      have h₂ := base64Digit_inj (by omega) (by omega) h.2
      rw [UInt8.toNat_inj.mp (show a.toNat = a'.toNat by omega)]
    all_goals simp [base64Digits] at h
  | case3 a b =>
    rcases data' with _ | ⟨a', _ | ⟨b', _ | ⟨c', rest'⟩⟩⟩
    · simp [base64Digits] at h
    · simp [base64Digits] at h
    · have ha := hbyte a
      have ha' := hbyte a'
      have hb := hbyte b
      have hb' := hbyte b'
      simp only [base64Digits, List.cons.injEq, and_true] at h
      have h₁ := base64Digit_inj (by omega) (by omega) h.1
      have h₂ := base64Digit_inj (by omega) (by omega) h.2.1
      have h₃ := base64Digit_inj (by omega) (by omega) h.2.2
      rw [UInt8.toNat_inj.mp (show a.toNat = a'.toNat by omega),
        UInt8.toNat_inj.mp (show b.toNat = b'.toNat by omega)]
    · simp [base64Digits] at h
  | case4 a b c rest ih =>
    rcases data' with _ | ⟨a', _ | ⟨b', _ | ⟨c', rest'⟩⟩⟩
    · simp [base64Digits] at h
    · simp [base64Digits] at h
    · simp [base64Digits] at h
    · have ha := hbyte a
      have ha' := hbyte a'
      have hb := hbyte b
      have hb' := hbyte b'
      have hc := hbyte c
      have hc' := hbyte c'
      simp only [base64Digits, List.cons.injEq] at h
      have h₁ := base64Digit_inj (by omega) (by omega) h.1
      have h₂ := base64Digit_inj (by omega) (by omega) h.2.1
      have h₃ := base64Digit_inj (by omega) (by omega) h.2.2.1
      have h₄ := base64Digit_inj (by omega) (by omega) h.2.2.2.1
      rw [UInt8.toNat_inj.mp (show a.toNat = a'.toNat by omega),
        UInt8.toNat_inj.mp (show b.toNat = b'.toNat by omega),
        UInt8.toNat_inj.mp (show c.toNat = c'.toNat by omega), ih h.2.2.2.2]

/-- **The text of a digest determines it.** -/
theorem recordDigest_inj [Crypto] {data data' : Bytes} (h : recordDigest data = recordDigest data') :
    Crypto.sha256 data = Crypto.sha256 data' := by
  have hdigits : ∀ data, recordDigest data = base64Digits (Crypto.sha256 data) := by
    intro data
    obtain ⟨n, hn⟩ := urlsafeBase64_eq (Crypto.sha256 data)
    rw [recordDigest, hn]
    exact rdropWhile_replicate (base64Digits_ne_pad _) n
  rw [hdigits, hdigits] at h
  exact base64Digits_inj h

/-! ## Accepted wheels -/

/-- What the entries of an archive hold. -/
def Archive.contents (archive : Archive) : List Bytes :=
  archive.infolist.filterMap fun info => info.data.toOption

theorem read_mem_contents {archive : Archive} {name : Str} {data : Bytes}
    (h : archive.read name = .ok data) : data ∈ archive.contents := by
  unfold Archive.read at h
  cases hfind : archive.infolist.reverse.find? fun info => info.filename == name with
  | none =>
    rw [hfind] at h
    cases h
  | some info =>
    rw [hfind] at h
    refine List.mem_filterMap.mpr ⟨info, List.mem_reverse.mp (List.mem_of_find?_eq_some hfind), ?_⟩
    exact toOption_eq_some.mpr h

section Wheel

variable [WheelReaders] [Crypto] {archive archive' : Archive}

/-- The rows of the bytes of a RECORD. -/
def readRecord (data : Bytes) : Except (Exc GateError) (List (Str × Str × Str)) := do
  recordRows (← WheelReaders.csvReader (← decode data))

omit [WheelReaders] [Crypto] in
/-- There is one file named RECORD. -/
theorem distInfo_record {names : List Str} {found : DistInfo} (h : distInfo names = .ok found)
    {name : Str} (hname : name ∈ names) (hending : endsWith name (lit ".dist-info/RECORD") = true) :
    name = found.record := by
  unfold distInfo at h
  dsimp only at h
  split at h
  · rename_i metadata wheel record license _ _ hrecord _
    cases h
    have hmem : name ∈ sortedNames (names.filter fun name =>
        endsWith name (lit ".dist-info/RECORD")) :=
      mem_sortedNames.mpr (List.mem_filter.mpr ⟨hname, hending⟩)
    rw [hrecord] at hmem
    exact List.mem_singleton.mp hmem
  · cases h

/-- The rows of RECORD describe the files of an accepted wheel. -/
theorem validateWheel_record {repositoryLicense : Except (Exc GateError) Bytes} {u : Unit}
    (h : validateWheel (.ok archive) repositoryLicense = .ok u) {record : Str}
    (hrecord : record ∈ archive.fileNames)
    (hending : endsWith record (lit ".dist-info/RECORD") = true) {data : Bytes}
    (hdata : archive.read record = .ok data) : ∃ rows, readRecord data = .ok rows ∧
      ValidRecord archive archive.fileNames record rows := by
  unfold validateWheel at h
  split at h
  · rename_i hvalid
    obtain ⟨_, -, hvalid⟩ := bind_eq_ok.mp (show validateArchive archive repositoryLicense = _
      from hvalid)
    obtain ⟨found, hfound, hvalid⟩ := bind_eq_ok.mp hvalid
    obtain ⟨_, -, hvalid⟩ := bind_eq_ok.mp hvalid
    obtain ⟨data', hdata', hvalid⟩ := bind_eq_ok.mp hvalid
    obtain ⟨text, htext, hvalid⟩ := bind_eq_ok.mp hvalid
    obtain ⟨texts, htexts, hvalid⟩ := bind_eq_ok.mp hvalid
    obtain ⟨rows, hrows, hchecked⟩ := checkRecord_ok hvalid
    obtain rfl := distInfo_record hfound hrecord hending
    obtain rfl := Except.ok.inj (hdata.symm.trans hdata')
    refine ⟨rows, ?_, hchecked⟩
    unfold readRecord
    rw [htext, ok_bind, htexts, ok_bind, hrows]
  · cases h

omit [WheelReaders] in
/-- Rows that describe two wheels give both the same RECORD. -/
theorem ValidRecord.record_eq {record record' : Str} {rows : List (Str × Str × Str)}
    (h : ValidRecord archive archive.fileNames record rows)
    (h' : ValidRecord archive' archive'.fileNames record' rows)
    (hrecord' : record' ∈ archive'.fileNames) : record' = record := by
  by_contra hne
  obtain ⟨row, hrow, rfl⟩ := List.mem_map.mp ((h'.paths record').mpr hrecord')
  obtain ⟨data, -, hdigest, -⟩ := h.row row hrow hne
  rw [(h'.own row hrow rfl).1] at hdigest
  cases hdigest

/-- **RECORD pins the files of a wheel**: accepted wheels with one RECORD have the same names, and
the same bytes under each of them. -/
theorem record_pins_contents {repositoryLicense repositoryLicense' : Except (Exc GateError) Bytes}
    (h : validateWheel (.ok archive) repositoryLicense = .ok ())
    (h' : validateWheel (.ok archive') repositoryLicense' = .ok ()) {record record' : Str}
    (hrecord : record ∈ archive.fileNames)
    (hending : endsWith record (lit ".dist-info/RECORD") = true)
    (hrecord' : record' ∈ archive'.fileNames)
    (hending' : endsWith record' (lit ".dist-info/RECORD") = true) {data : Bytes}
    (hdata : archive.read record = .ok data) (hdata' : archive'.read record' = .ok data)
    (hfree : HashCollisionFree (archive.contents ++ archive'.contents)) :
    (∀ name, name ∈ archive.fileNames ↔ name ∈ archive'.fileNames) ∧
      ∀ name ∈ archive.fileNames, ∃ content, archive.read name = .ok content ∧
        archive'.read name = .ok content := by
  obtain ⟨rows, hrows, hvalid⟩ := validateWheel_record h hrecord hending hdata
  obtain ⟨rows', hrows', hvalid'⟩ := validateWheel_record h' hrecord' hending' hdata'
  obtain rfl := Except.ok.inj (hrows.symm.trans hrows')
  obtain rfl := hvalid.record_eq hvalid' hrecord'
  refine ⟨fun name => (hvalid.paths name).symm.trans (hvalid'.paths name), fun name hname => ?_⟩
  obtain ⟨row, hrow, rfl⟩ := List.mem_map.mp ((hvalid.paths name).mpr hname)
  by_cases hself : row.1 = record'
  · exact ⟨data, hself ▸ hdata, hself ▸ hdata'⟩
  · obtain ⟨content, hcontent, hdigest, -⟩ := hvalid.row row hrow hself
    obtain ⟨content', hcontent', hdigest', -⟩ := hvalid'.row row hrow hself
    have hsame := recordDigest_inj (List.append_cancel_left (hdigest.symm.trans hdigest'))
    have heq := hfree content (List.mem_append_left _ (read_mem_contents hcontent)) content'
      (List.mem_append_right _ (read_mem_contents hcontent')) hsame
    exact ⟨content, hcontent, heq ▸ hcontent'⟩

end Wheel

/-! ## Two wheels with one RECORD -/

section Samples

local instance recordCrypto : Crypto := wheelCrypto

local instance recordReaders : WheelReaders := sampleReaders

theorem sampleWheels_accepted : (fun archive archive' : Archive =>
    validateWheel (.ok archive) (.ok sampleLicense) = .ok () ∧
    validateWheel (.ok archive') (.ok sampleLicense) = .ok () ∧
    (∀ other ∈ [archive, archive'], lit "cyphersyntax-0.1.0.dist-info/RECORD" ∈ other.fileNames ∧
      other.read (lit "cyphersyntax-0.1.0.dist-info/RECORD") = .ok (utf8 sampleRecord)) ∧
    HashCollisionFree (archive.contents ++ archive'.contents)) (sampleWheel "docs/")
      (sampleWheel "src/") := by
  decide +kernel

theorem record_pins_contents_sample :
    (∀ name, name ∈ (sampleWheel "docs/").fileNames ↔ name ∈ (sampleWheel "src/").fileNames) ∧
      ∀ name ∈ (sampleWheel "docs/").fileNames, ∃ content,
        (sampleWheel "docs/").read name = .ok content ∧
          (sampleWheel "src/").read name = .ok content := by
  obtain ⟨h, h', hrecords, hfree⟩ := sampleWheels_accepted
  obtain ⟨hrecord, hdata⟩ := hrecords _ List.mem_cons_self
  obtain ⟨hrecord', hdata'⟩ := hrecords _ (List.mem_cons_of_mem _ List.mem_cons_self)
  exact record_pins_contents h h' hrecord (by decide) hrecord' (by decide) hdata hdata' hfree

end Samples

end CypherSyntax
