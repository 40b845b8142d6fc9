import CypherSyntax.Instances
import CypherSyntax.Wheel

/-!
# Wheels that stay in their directory

Where the entries of a wheel go when their paths are followed, segment by segment, from the
directory that the wheel is extracted to. A path that is confined never leaves that directory on
its way.

Results:
* `confined_iff`: a name is confined when it is relative and does not climb above where it starts.
* `wheel_confined_iff`: the entries of an accepted wheel are confined if and only if its directories
  are, which are not checked.
-/

namespace CypherSyntax

open Python Json

/-! ## Paths -/

/-- Follows one segment from a directory, given by the names on the way to it. -/
def enter (position : List Str) (segment : Str) : List Str :=
  if segment = [] ∨ segment = lit "." then position
  else if segment = lit ".." then position.dropLast
  else position ++ [segment]

/-- The path is relative, and following it from any directory never leaves that directory. -/
def Confined (name : Str) : Prop :=
  startsWith name (lit "/") = false ∧
    ∀ root : List Str, ∀ before, before <+: segments name → root <+: before.foldl enter root

/-- The segments do not climb above a depth of zero. -/
def staysBelow : Nat → List Str → Bool
  | _, [] => true
  | depth, segment :: rest =>
    if segment = [] ∨ segment = lit "." then staysBelow depth rest
    else if segment = lit ".." then
      match depth with
      | 0 => false
      | depth + 1 => staysBelow depth rest
    else staysBelow (depth + 1) rest

/-- The path is relative and does not climb above where it starts. -/
def staysInside (name : Str) : Bool :=
  !startsWith name (lit "/") && staysBelow 0 (segments name)

variable {root stack before : List Str} {segment : Str} {name : Str}

theorem forall_prefix_cons {α : Type} {P : List α → Prop} {a : α} {l : List α} :
    (∀ before, before <+: a :: l → P before) ↔
      P [] ∧ ∀ before, before <+: l → P (a :: before) := by
  constructor
  · intro h
    exact ⟨h [] (List.nil_prefix), fun before hbefore =>
      h _ (List.cons_prefix_cons.mpr ⟨rfl, hbefore⟩)⟩
  · rintro ⟨hnil, hcons⟩ before hbefore
    cases before with
    | nil => exact hnil
    | cons b before =>
      obtain ⟨rfl, hrest⟩ := List.cons_prefix_cons.mp hbefore
      exact hcons before hrest

/-- What does not climb above where it starts stays below every directory. -/
theorem prefix_of_staysBelow (root : List Str) : ∀ (path stack : List Str),
    staysBelow stack.length path = true → ∀ before, before <+: path →
      root <+: before.foldl enter (root ++ stack)
  | [], stack, _ => by
    intro before hbefore
    rw [List.prefix_nil.mp hbefore]
    exact List.prefix_append _ _
  | segment :: path, stack, h => by
    refine forall_prefix_cons.mpr ⟨List.prefix_append _ _, fun before hbefore => ?_⟩
    show root <+: before.foldl enter (enter (root ++ stack) segment)
    unfold staysBelow at h
    rw [enter]
    by_cases hstay : segment = [] ∨ segment = lit "."
    · rw [if_pos hstay] at h ⊢
      exact prefix_of_staysBelow root path stack h before hbefore
    · rw [if_neg hstay] at h ⊢
      by_cases hup : segment = lit ".."
      · rw [if_pos hup] at h ⊢
        rcases List.eq_nil_or_concat' stack with rfl | ⟨stack, last, rfl⟩
        · cases h
        · rw [← List.append_assoc, List.dropLast_concat]
          rw [List.length_append] at h
          exact prefix_of_staysBelow root path stack h before hbefore
      · rw [if_neg hup] at h ⊢
        rw [List.append_assoc]
        refine prefix_of_staysBelow root path (stack ++ [segment]) ?_ before hbefore
        rw [List.length_append]
        exact h

/-- What stays below a directory that has a parent does not climb above it. -/
theorem staysBelow_of_prefix (hroot : root ≠ []) : ∀ (path stack : List Str),
    (∀ before, before <+: path → root <+: before.foldl enter (root ++ stack)) →
      staysBelow stack.length path = true
  | [], _, _ => rfl
  | segment :: path, stack, h => by
    obtain ⟨-, h⟩ := forall_prefix_cons.mp h
    have h : ∀ before, before <+: path →
        root <+: before.foldl enter (enter (root ++ stack) segment) := h
    unfold staysBelow
    rw [enter] at h
    by_cases hstay : segment = [] ∨ segment = lit "."
    · rw [if_pos hstay] at h ⊢
      exact staysBelow_of_prefix hroot path stack h
    · rw [if_neg hstay] at h ⊢
      by_cases hup : segment = lit ".."
      · rw [if_pos hup] at h ⊢
        rcases List.eq_nil_or_concat' stack with rfl | ⟨stack, last, rfl⟩
        · -- the parent of the directory is not below it
          have hparent := (h [] List.nil_prefix).length_le
          have hpos := List.length_pos_of_ne_nil hroot
          rw [List.append_nil, List.foldl_nil, List.length_dropLast] at hparent
          omega
        · rw [← List.append_assoc, List.dropLast_concat] at h
          rw [List.length_append]
          exact staysBelow_of_prefix hroot path stack h
      · rw [if_neg hup] at h ⊢
        rw [List.append_assoc] at h
        have hdeeper := staysBelow_of_prefix hroot path (stack ++ [segment]) h
        rwa [List.length_append] at hdeeper

/-- **A name is confined when it is relative and does not climb above where it starts.** -/
theorem confined_iff : Confined name ↔ staysInside name = true := by
  unfold Confined staysInside
  rw [Bool.and_eq_true, Bool.not_eq_true']
  refine and_congr Iff.rfl ⟨fun h => ?_, fun h root before hbefore => ?_⟩
  · have hroot : ([[]] : List Str) ≠ [] := List.cons_ne_nil _ _
    refine staysBelow_of_prefix hroot (segments name) [] fun before hbefore => ?_
    exact h _ before hbefore
  · have hprefix := prefix_of_staysBelow root (segments name) [] h before hbefore
    rwa [List.append_nil] at hprefix

/-- Segments without `..` do not climb. -/
theorem staysBelow_of_not_mem : ∀ (path : List Str) (depth : Nat), lit ".." ∉ path →
    staysBelow depth path = true
  | [], _, _ => rfl
  | segment :: path, depth, h => by
    obtain ⟨hne, hrest⟩ := not_or.mp (List.mem_cons.not.mp h)
    unfold staysBelow
    by_cases hstay : segment = [] ∨ segment = lit "."
    · rw [if_pos hstay]
      exact staysBelow_of_not_mem path depth hrest
    · rw [if_neg hstay, if_neg (Ne.symm hne)]
      exact staysBelow_of_not_mem path (depth + 1) hrest

/-- **A file whose name is accepted is confined.** -/
theorem confined_of_safe (h : safeWheelMember name = true) : Confined name := by
  obtain ⟨-, hslash, -, hdots⟩ := safeWheelMember_iff.mp h
  rw [confined_iff, staysInside, hslash]
  exact staysBelow_of_not_mem _ 0 hdots

/-! ## Wheels -/

section Wheel

variable [WheelReaders] [Crypto]

/-- **The entries of an accepted wheel are confined if and only if its directories do not climb
above where they start.** The names of directories are not checked. -/
theorem wheel_confined_iff {archive : Archive} {repositoryLicense : Except (Exc GateError) Bytes}
    (h : validateWheel (.ok archive) repositoryLicense = .ok ()) :
    (∀ info ∈ archive.infolist, Confined info.filename) ↔
      ∀ info ∈ archive.infolist, info.isDir = true → staysInside info.filename = true := by
  obtain ⟨archive', harchive, hnames, -⟩ := validateWheel_ok h
  cases harchive
  constructor
  · exact fun hall info hinfo _ => confined_iff.mp (hall info hinfo)
  · intro hdirs info hinfo
    cases hdir : info.isDir with
    | true => exact confined_iff.mpr (hdirs info hinfo hdir)
    | false => exact confined_of_safe (hnames.safe _ (mem_fileNames hinfo hdir))

end Wheel

/-! ## A wheel with a directory -/

section Samples

def sampleMetadata : Bytes :=
  ascii ("Metadata-Version: 2.4\nName: CypherSyntax\nVersion: 0.1.0\nRequires-Python: >=3.10\n" ++
    "Description-Content-Type: text/markdown\nRequires-Dist: cryptography>=46.0.0\n\n" ++
    "CypherSyntax is a compact authenticated secure-messaging core for Python.\n")

def sampleWheelFile : Bytes := ascii "Wheel-Version: 1.0\nRoot-Is-Purelib: true\n"

def sampleLicense : Bytes := ascii "AGPL\n"

/-- The SHA-256 digests of the files of the sample. -/
def sampleDigest (data : Bytes) : Bytes :=
  if data = [] then
    [0xe3, 0xb0, 0xc4, 0x42, 0x98, 0xfc, 0x1c, 0x14, 0x9a, 0xfb, 0xf4, 0xc8, 0x99, 0x6f,
      0xb9, 0x24, 0x27, 0xae, 0x41, 0xe4, 0x64, 0x9b, 0x93, 0x4c, 0xa4, 0x95, 0x99, 0x1b,
      0x78, 0x52, 0xb8, 0x55]
  else if data = sampleMetadata then
    [0x4e, 0x66, 0xad, 0x13, 0x63, 0x08, 0x39, 0x1f, 0xbc, 0xb1, 0x02, 0xd3, 0xe1, 0x22,
      0xf8, 0xb8, 0x56, 0x6f, 0xe3, 0x75, 0x7a, 0x32, 0x52, 0xcd, 0x3d, 0x74, 0x1e, 0x21,
      0x31, 0xfd, 0xf5, 0xff]
  else if data = sampleWheelFile then
    [0xa4, 0xe0, 0xb6, 0x53, 0x59, 0x3a, 0x84, 0x27, 0xff, 0xbe, 0x46, 0x5e, 0xee, 0x1d,
      0xac, 0x9c, 0x64, 0x56, 0xc7, 0xe0, 0xb6, 0xd1, 0x78, 0xee, 0x73, 0x76, 0xb4, 0xd8,
      0xa4, 0x27, 0xd8, 0xe6]
  else if data = sampleLicense then
    [0x82, 0x8f, 0x28, 0xdf, 0x8d, 0x62, 0x7b, 0x6f, 0xc4, 0x8f, 0xa2, 0x0c, 0x36, 0xbe,
      0xa3, 0x41, 0x09, 0xe7, 0x31, 0x52, 0x10, 0x50, 0x0e, 0x45, 0x14, 0x31, 0xde, 0x6e,
      0xfc, 0x74, 0x9c, 0x7e]
  else List.replicate 32 0

local instance wheelCrypto : Crypto :=
  { digests with
    sha256 := sampleDigest
    sha256_length := by
      intro data
      unfold sampleDigest
      split_ifs <;> rfl }

example : recordDigest [] = lit "47DEQpj8HBSa-_TImW-5JCeuQeRkm5NMpJWZG3hSuFU" := by decide +kernel

/-- The value of a header line of that name. -/
def headerValue (name line : Str) : Option Str :=
  if startsWith line (name ++ lit ": ") then some (line.drop (name.length + 2)) else none

/-- Reads header lines and what follows the first empty line. -/
def readMessage (text : Str) : Message :=
  let lines := text.splitOn 0x0A
  let headers := lines.takeWhile (· != [])
  { get := fun name => (headers.filterMap (headerValue name)).head?
    getAll := fun name => headers.filterMap (headerValue name)
    payload := some ([0x0A].intercalate (lines.drop (headers.length + 1))) }

/-- Readers of texts without quotes or continued lines. -/
local instance sampleReaders : WheelReaders where
  parsestr := readMessage
  csvReader text := .ok (((text.splitOn 0x0A).filter (· != [])).map (·.splitOn 0x2C))
  reprTexts names := joinNames names

/-- The files of the sample, RECORD apart. -/
def sampleFiles : List (Str × Bytes) :=
  expectedPackageFiles.map (·, []) ++
    [(lit "cyphersyntax-0.1.0.dist-info/METADATA", sampleMetadata),
      (lit "cyphersyntax-0.1.0.dist-info/WHEEL", sampleWheelFile),
      (lit "cyphersyntax-0.1.0.dist-info/licenses/LICENSE", sampleLicense)]

def sampleRecord : Str :=
  (sampleFiles.flatMap fun file => file.1 ++ lit ",sha256=" ++ recordDigest file.2 ++ lit "," ++
    natText file.2.length ++ [0x0A]) ++ lit "cyphersyntax-0.1.0.dist-info/RECORD,,\n"

/-- The sample with an entry for a directory. -/
def sampleWheel (directory : String) : Archive :=
  ⟨⟨lit directory, .ok []⟩ :: ⟨lit "cyphersyntax-0.1.0.dist-info/RECORD", .ok (utf8 sampleRecord)⟩ ::
    sampleFiles.map fun file => ⟨file.1, .ok file.2⟩⟩

theorem sampleWheel_accepted :
    validateWheel (.ok (sampleWheel "cyphersyntax/")) (.ok sampleLicense) = .ok () ∧
      validateWheel (.ok (sampleWheel "../outside/")) (.ok sampleLicense) = .ok () := by
  decide +kernel

/-- A directory inside leaves the sample confined, and one outside does not. -/
theorem wheel_confined_iff_outside :
    (∀ info ∈ (sampleWheel "cyphersyntax/").infolist, Confined info.filename) ∧
      ¬∀ info ∈ (sampleWheel "../outside/").infolist, Confined info.filename := by
  obtain ⟨hinside, houtside⟩ := sampleWheel_accepted
  rw [wheel_confined_iff hinside, wheel_confined_iff houtside]
  decide +kernel

/-- A wheel with an entry for a directory outside of its own is accepted. -/
theorem wheel_confined_not : ¬∀ (archive : Archive)
    (repositoryLicense : Except (Exc GateError) Bytes),
    validateWheel (.ok archive) repositoryLicense = .ok () →
      ∀ info ∈ archive.infolist, Confined info.filename := by
  intro h
  have hconfined : Confined (lit "../outside/") :=
    h _ _ sampleWheel_accepted.2 ⟨lit "../outside/", .ok []⟩ List.mem_cons_self
  rw [confined_iff] at hconfined
  exact absurd hconfined (by decide)

end Samples

end CypherSyntax
