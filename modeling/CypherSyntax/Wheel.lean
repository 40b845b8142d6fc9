import CypherSyntax.Crypto
import CypherSyntax.Python.Json.Object
import Mathlib.Data.List.DropRight

/-!
# The wheel check

`check_green.py`: `_safe_wheel_member`, `_record_digest` and `_validate_wheel`, with the checks in
their order and the texts of their errors.

* A wheel is a zip archive, given by its entries, in their order and with repetitions, and by what
  reading each of them returns or raises. How `zipfile` reads the bytes is out of scope.
* A name that ends in a slash is a directory (`ZipInfo.is_dir`). The checks of names look at the
  other entries only.
* The readers of the texts in a wheel, `email.parser` and `csv`, are parameters (`WheelReaders`),
  as is SHA-256. No property of them is assumed in this module.
* What is printed is left out, and so is the build that makes the wheel.

Results:
* `safeWheelMember_iff`: the names of files that are accepted.
* `validateWheel_ok`: the names of the files of an accepted wheel are safe, and its RECORD lists
  exactly these files, each with its digest and its size.
-/

namespace CypherSyntax

open Python Json

/-! ## Archives -/

/-- The exceptions of the quality gate and of the packages it uses. -/
inductive GateError where
  | greenCheckError | badZipFile | csvError
  deriving DecidableEq

def greenCheckError (message : Str) : Exc GateError := .user .greenCheckError message

/-- An entry of an archive. -/
structure ZipInfo where
  filename : Str
  /-- What reading the entry returns. -/
  data : Except (Exc GateError) Bytes

/-- A directory is an entry whose name ends with a slash. -/
def ZipInfo.isDir (info : ZipInfo) : Bool := info.filename.getLast? == some 0x2F

structure Archive where
  infolist : List ZipInfo

/-- `archive.read(name)` reads the last entry of the name. -/
def Archive.read (archive : Archive) (name : Str) : Except (Exc GateError) Bytes :=
  match archive.infolist.reverse.find? fun info => info.filename == name with
  | some info => info.data
  | none => .error (.builtin .keyError name)

/-- A parsed header block with what follows it. -/
structure Message where
  /-- `message[name]` -/
  get : Str → Option Str
  /-- `message.get_all(name, failobj=[])` -/
  getAll : Str → List Str
  /-- `message.get_payload()`, `none` when it is a list of messages -/
  payload : Option Str

/-- The readers of the texts in a wheel. -/
class WheelReaders where
  /-- `Parser().parsestr(text)` -/
  parsestr : Str → Message
  /-- `list(csv.reader(io.StringIO(text)))` -/
  csvReader : Str → Except (Exc GateError) (List (List Str))
  /-- `repr` of a list of texts -/
  reprTexts : List Str → Str

/-! ## Names -/

def startsWith (text beginning : Str) : Bool := beginning.isPrefixOf text

def endsWith (text ending : Str) : Bool := ending.isSuffixOf text

/-- `part in text` -/
def inText (part text : Str) : Bool := text.tails.any fun rest => part.isPrefixOf rest

/-- What lies between the slashes. -/
def segments (name : Str) : List Str := name.splitOn 0x2F

/-- `PurePosixPath(name).parts`: the root when there is one, and the segments that are neither empty
nor a dot. -/
def posixParts (name : Str) : List Str :=
  let slashes := name.takeWhile (· == 0x2F)
  let root := if slashes.length = 0 then [] else
    if slashes.length = 2 then [lit "//"] else [lit "/"]
  root ++ (segments name).filter fun s => s != [] && s != lit "."

/-- `_safe_wheel_member` -/
def safeWheelMember (name : Str) : Bool :=
  let path := posixParts name
  name != [] && !(startsWith name (lit "/") || startsWith name (lit "\\")) &&
    !name.contains 0x5C && !path.contains (lit "..")

/-- `sorted` -/
def sortedNames (names : List Str) : List Str :=
  names.insertionSort fun s t => strLe s t = true

/-! ## Digests -/

def base64Digit (n : Nat) : CodePoint :=
  codePoint (if n < 26 then 0x41 + n else if n < 52 then 0x61 + (n - 26)
    else if n < 62 then 0x30 + (n - 52) else if n = 62 then 0x2D else 0x5F)

/-- `base64.urlsafe_b64encode` -/
def urlsafeBase64 : Bytes → Str
  | [] => []
  | [a] => [base64Digit (a.toNat / 4), base64Digit (a.toNat % 4 * 16), 0x3D, 0x3D]
  | [a, b] => [base64Digit (a.toNat / 4), base64Digit (a.toNat % 4 * 16 + b.toNat / 16),
      base64Digit (b.toNat % 16 * 4), 0x3D]
  | a :: b :: c :: rest =>
    base64Digit (a.toNat / 4) :: base64Digit (a.toNat % 4 * 16 + b.toNat / 16) ::
      base64Digit (b.toNat % 16 * 4 + c.toNat / 64) :: base64Digit (c.toNat % 64) ::
      urlsafeBase64 rest

/-- `_record_digest` -/
def recordDigest [Crypto] (data : Bytes) : Str :=
  (urlsafeBase64 (Crypto.sha256 data)).rdropWhile (· == 0x3D)

/-! ## The check -/

def packageName : Str := lit "CypherSyntax"

def packageVersion : Str := lit "0.1.0"

def expectedRuntimeDependency : Str := lit "cryptography>=46.0.0"

def expectedReadmeMarker : Str :=
  lit "CypherSyntax is a compact authenticated secure-messaging core for Python."

def expectedPackageFiles : List Str :=
  ["cyphersyntax/__init__.py", "cyphersyntax/errors.py", "cyphersyntax/handshake.py",
    "cyphersyntax/identity.py", "cyphersyntax/kdf.py", "cyphersyntax/persistence.py",
    "cyphersyntax/protocol.py", "cyphersyntax/py.typed", "cyphersyntax/replay.py",
    "cyphersyntax/session.py", "cyphersyntax/store.py", "cyphersyntax/wire.py"].map lit

/-- `if names: raise GreenCheckError(f"...: {', '.join(names)}")` -/
def rejectNames (message : String) (names : List Str) : Except (Exc GateError) Unit :=
  raiseIf (names ≠ []) (greenCheckError (lit message ++ lit ": " ++ joinNames names))

def checkThat (condition : Bool) (message : String) : Except (Exc GateError) Unit :=
  raiseIf (condition = false) (greenCheckError (lit message))

/-- The checks of the names of the files. -/
def checkNames (names : List Str) : Except (Exc GateError) Unit := do
  checkThat (decide names.Nodup) "wheel contains duplicate archive members"
  rejectNames "wheel contains unsafe archive members"
    (sortedNames (names.filter fun name => !safeWheelMember name))
  rejectNames "wheel is missing package files"
    (sortedNames (expectedPackageFiles.filter fun name => !names.contains name))
  rejectNames "wheel contains unexpected package modules"
    (sortedNames (names.filter fun name => startsWith name (lit "cyphersyntax/") &&
      endsWith name (lit ".py") && !(expectedPackageFiles.contains name)))
  rejectNames "wheel contains forbidden files"
    (sortedNames (names.filter fun name => startsWith name (lit "tests/") ||
      inText (lit "__pycache__") name ||
      [".pyc", ".pem", ".bin", ".coverage"].any fun ending => endsWith name (lit ending)))

/-- The files of the metadata, when there is one of each kind. -/
structure DistInfo where
  metadata : Str
  wheel : Str
  record : Str
  license : Str

def distInfo (names : List Str) : Except (Exc GateError) DistInfo :=
  let ending := fun suffix => sortedNames (names.filter fun name => endsWith name (lit suffix))
  match ending ".dist-info/METADATA", ending ".dist-info/WHEEL", ending ".dist-info/RECORD",
    ending ".dist-info/licenses/LICENSE" with
  | [metadata], [wheel], [record], [license] => .ok ⟨metadata, wheel, record, license⟩
  | _, _, _, _ => .error (greenCheckError (lit ("wheel must contain exactly one METADATA, " ++
      "WHEEL, RECORD, and LICENSE file")))

section Readers

variable [WheelReaders]

def checkMetadata (metadata : Message) : Except (Exc GateError) Unit := do
  checkThat (metadata.get (lit "Name") == some packageName)
    "wheel metadata contains an unexpected name"
  checkThat (metadata.get (lit "Version") == some packageVersion)
    "wheel metadata contains an unexpected version"
  checkThat (metadata.get (lit "Requires-Python") == some (lit ">=3.10"))
    "wheel metadata contains an unexpected Python requirement"
  checkThat (metadata.get (lit "Description-Content-Type") == some (lit "text/markdown"))
    "wheel metadata is missing Markdown README metadata"
  checkThat (metadata.payload.any fun payload => inText expectedReadmeMarker payload)
    "wheel metadata is missing the repository README"
  let directRuntimeDependencies := (metadata.getAll (lit "Requires-Dist")).filter fun dependency =>
    !inText (lit "; extra ==") dependency
  raiseIf (directRuntimeDependencies ≠ [expectedRuntimeDependency]) (greenCheckError
    (lit "wheel metadata contains unexpected runtime dependencies: " ++
      WheelReaders.reprTexts directRuntimeDependencies))

/-- The check of one row of RECORD. -/
def checkRow [Crypto] (archive : Archive) (record path digestField sizeField : Str) :
    Except (Exc GateError) Unit := do
  if path = record then
    checkThat (digestField == [] && sizeField == [])
      "wheel RECORD entry for RECORD must omit hash and size"
  else
    raiseIf (startsWith digestField (lit "sha256=") = false)
      (greenCheckError (lit "wheel RECORD entry lacks a SHA-256 digest: " ++ path))
    let data ← archive.read path
    raiseIf (digestField ≠ lit "sha256=" ++ recordDigest data)
      (greenCheckError (lit "wheel RECORD digest does not match archive member: " ++ path))
    raiseIf (sizeField ≠ natText data.length)
      (greenCheckError (lit "wheel RECORD size does not match archive member: " ++ path))

/-- The rows of RECORD, when all of them have three fields. -/
def recordRows (rows : List (List Str)) : Except (Exc GateError) (List (Str × Str × Str)) :=
  rows.mapM fun
    | [path, digestField, sizeField] => .ok (path, digestField, sizeField)
    | _ => .error (greenCheckError (lit "wheel RECORD contains malformed rows"))

def checkRecord [Crypto] (archive : Archive) (names : List Str) (record : Str)
    (rows : List (List Str)) : Except (Exc GateError) Unit := do
  let rows ← recordRows rows
  let recordPaths := rows.map fun row => row.1
  checkThat (decide recordPaths.Nodup) "wheel RECORD contains duplicate paths"
  checkThat (recordPaths.all names.contains && names.all recordPaths.contains)
    "wheel RECORD does not match archive contents"
  rows.forM fun row => checkRow archive record row.1 row.2.1 row.2.2

/-- The checks of the license and of the two metadata files. -/
def checkDistInfo (archive : Archive) (found : DistInfo)
    (repositoryLicense : Except (Exc GateError) Bytes) : Except (Exc GateError) Unit := do
  let repositoryLicense ← repositoryLicense
  let license ← archive.read found.license
  checkThat (license == repositoryLicense) "wheel license does not match repository LICENSE"
  checkMetadata (WheelReaders.parsestr (← decode (← archive.read found.metadata)))
  let wheelMetadata := WheelReaders.parsestr (← decode (← archive.read found.wheel))
  checkThat (wheelMetadata.get (lit "Root-Is-Purelib") == some (lit "true"))
    "wheel must be platform-independent pure Python"

/-- The names of the files of an archive. -/
def Archive.fileNames (archive : Archive) : List Str :=
  (archive.infolist.filter fun info => !info.isDir).map ZipInfo.filename

/-- The body of the `try` statement of `_validate_wheel`. -/
def validateArchive [Crypto] (archive : Archive)
    (repositoryLicense : Except (Exc GateError) Bytes) : Except (Exc GateError) Unit := do
  let names := archive.fileNames
  checkNames names
  let found ← distInfo names
  checkDistInfo archive found repositoryLicense
  let record ← archive.read found.record
  let recordText ← decode record
  let rows ← WheelReaders.csvReader recordText
  checkRecord archive names found.record rows

/-- `except (OSError, UnicodeError, zipfile.BadZipFile)` -/
def isWheelFailure : Exc GateError → Bool
  | .builtin .osError _ | .builtin .unicodeEncodeError _ | .builtin .unicodeDecodeError _ => true
  | .user .badZipFile _ => true
  | _ => false

/-- The text of an exception. -/
def gateMessage : Exc GateError → Str
  | .builtin _ message => message
  | .user _ message => message

/-- `_validate_wheel`, of what opening the wheel returns and what reading the repository's license
returns. -/
def validateWheel [Crypto] (wheel : Except (Exc GateError) Archive)
    (repositoryLicense : Except (Exc GateError) Bytes) : Except (Exc GateError) Unit :=
  match (do validateArchive (← wheel) repositoryLicense) with
  | .ok () => .ok ()
  | .error e => .error (if isWheelFailure e then
      greenCheckError (lit "failed to validate wheel: " ++ gateMessage e) else e)

/-! ## What is accepted -/

omit [WheelReaders] in
theorem checkThat_ok {condition : Bool} {message : String} {u : Unit} :
    checkThat condition message = .ok u ↔ condition = true := by
  rw [checkThat, raiseIf_ok, Bool.not_eq_false]

omit [WheelReaders] in
theorem mem_sortedNames {names : List Str} {name : Str} : name ∈ sortedNames names ↔ name ∈ names :=
  (List.perm_insertionSort _ names).mem_iff

omit [WheelReaders] in
theorem rejectNames_ok {message : String} {names : List Str} {p : Str → Bool} {u : Unit} :
    rejectNames message (sortedNames (names.filter p)) = .ok u ↔
      ∀ name ∈ names, p name = false := by
  rw [rejectNames, raiseIf_ok, not_not, List.eq_nil_iff_forall_not_mem]
  refine forall_congr' fun name => ?_
  rw [mem_sortedNames, List.mem_filter, not_and, Bool.not_eq_true]

/-- The names that pass the checks. -/
structure ValidNames (names : List Str) : Prop where
  nodup : names.Nodup
  safe : ∀ name ∈ names, safeWheelMember name = true
  complete : ∀ name ∈ expectedPackageFiles, name ∈ names
  modules : ∀ name ∈ names, startsWith name (lit "cyphersyntax/") = true →
    endsWith name (lit ".py") = true → name ∈ expectedPackageFiles

omit [WheelReaders] in
theorem checkNames_ok {names : List Str} {u : Unit} (h : checkNames names = .ok u) :
    ValidNames names := by
  obtain ⟨_, hnodup, h⟩ := bind_eq_ok.mp h
  obtain ⟨_, hsafe, h⟩ := bind_eq_ok.mp h
  obtain ⟨_, hcomplete, h⟩ := bind_eq_ok.mp h
  obtain ⟨_, hmodules, -⟩ := bind_eq_ok.mp h
  refine ⟨of_decide_eq_true (checkThat_ok.mp hnodup), fun name hname => ?_, fun name hname => ?_,
    fun name hname hstart hend => ?_⟩
  · exact Bool.not_eq_false' .. ▸ rejectNames_ok.mp hsafe name hname
  · have hfound := rejectNames_ok.mp hcomplete name hname
    simpa using hfound
  · have hexpected := rejectNames_ok.mp hmodules name hname
    simpa [hstart, hend] using hexpected

omit [WheelReaders] in
theorem mem_posixParts {name : Str} : lit ".." ∈ posixParts name ↔ lit ".." ∈ segments name := by
  unfold posixParts
  rw [List.mem_append, List.mem_filter]
  constructor
  · rintro (hroot | ⟨h, -⟩)
    · exfalso
      split at hroot
      · cases hroot
      · split at hroot
        · exact absurd hroot (by decide)
        · exact absurd hroot (by decide)
    · exact h
  · exact fun h => Or.inr ⟨h, by decide⟩

omit [WheelReaders] in
/-- **The name of a file that is accepted** is relative, has no backslash and no segment `..`. -/
theorem safeWheelMember_iff {name : Str} : safeWheelMember name = true ↔
    name ≠ [] ∧ startsWith name (lit "/") = false ∧ 0x5C ∉ name ∧ lit ".." ∉ segments name := by
  have hbackslash : startsWith name (lit "\\") = true → 0x5C ∈ name := fun h =>
    (List.isPrefixOf_iff_prefix.mp h).subset (by decide)
  simp only [safeWheelMember, Bool.and_eq_true, bne_iff_ne, ne_eq, Bool.not_eq_true',
    Bool.or_eq_false_iff, List.contains_eq_mem, decide_eq_false_iff_not, mem_posixParts]
  constructor
  · rintro ⟨⟨⟨hne, hslash, -⟩, hno⟩, hdots⟩
    exact ⟨hne, hslash, hno, hdots⟩
  · rintro ⟨hne, hslash, hno, hdots⟩
    exact ⟨⟨⟨hne, hslash, Bool.eq_false_iff.mpr fun h => hno (hbackslash h)⟩, hno⟩, hdots⟩

/-- The parts of a RECORD that passes the checks. -/
structure ValidRecord [Crypto] (archive : Archive) (names : List Str) (record : Str)
    (rows : List (Str × Str × Str)) : Prop where
  nodup : (rows.map fun row => row.1).Nodup
  paths : ∀ name, name ∈ rows.map (fun row => row.1) ↔ name ∈ names
  row : ∀ row ∈ rows, row.1 ≠ record → ∃ data, archive.read row.1 = .ok data ∧
    row.2.1 = lit "sha256=" ++ recordDigest data ∧ row.2.2 = natText data.length
  own : ∀ row ∈ rows, row.1 = record → row.2.1 = [] ∧ row.2.2 = []

omit [WheelReaders] in
theorem checkRow_ok [Crypto] {archive : Archive} {record path digestField sizeField : Str}
    {u : Unit} (h : checkRow archive record path digestField sizeField = .ok u) :
    (path ≠ record → ∃ data, archive.read path = .ok data ∧
      digestField = lit "sha256=" ++ recordDigest data ∧ sizeField = natText data.length) ∧
    (path = record → digestField = [] ∧ sizeField = []) := by
  unfold checkRow at h
  by_cases hpath : path = record
  · rw [if_pos hpath] at h
    have hempty := checkThat_ok.mp h
    rw [Bool.and_eq_true, beq_iff_eq, beq_iff_eq] at hempty
    exact ⟨fun hne => absurd hpath hne, fun _ => hempty⟩
  · rw [if_neg hpath] at h
    obtain ⟨_, -, h⟩ := bind_eq_ok.mp h
    obtain ⟨data, hdata, h⟩ := bind_eq_ok.mp h
    obtain ⟨_, hdigest, h⟩ := bind_eq_ok.mp h
    exact ⟨fun _ => ⟨data, hdata, not_not.mp (raiseIf_ok.mp hdigest), not_not.mp (raiseIf_ok.mp h)⟩,
      fun heq => absurd heq hpath⟩

omit [WheelReaders] in
theorem forM_ok {α ε : Type} {f : α → Except ε Unit} : ∀ {xs : List α} {u : Unit},
    xs.forM f = .ok u → ∀ x ∈ xs, f x = .ok ()
  | [], _, _, _, hx => absurd hx List.not_mem_nil
  | x :: xs, _, h, y, hy => by
    obtain ⟨_, hx, h⟩ := bind_eq_ok.mp h
    rcases List.mem_cons.mp hy with rfl | hy
    · exact hx
    · exact forM_ok h y hy

omit [WheelReaders] in
theorem checkRecord_ok [Crypto] {archive : Archive} {names : List Str} {record : Str}
    {texts : List (List Str)} {u : Unit} (h : checkRecord archive names record texts = .ok u) :
    ∃ rows, recordRows texts = .ok rows ∧ ValidRecord archive names record rows := by
  obtain ⟨rows, htexts, h⟩ := bind_eq_ok.mp h
  obtain ⟨_, hnodup, h⟩ := bind_eq_ok.mp h
  obtain ⟨_, hpaths, hrows⟩ := bind_eq_ok.mp h
  have hpaths := checkThat_ok.mp hpaths
  rw [Bool.and_eq_true, List.all_eq_true, List.all_eq_true] at hpaths
  refine ⟨rows, htexts, of_decide_eq_true (checkThat_ok.mp hnodup), fun name => ⟨fun hname => ?_,
    fun hname => ?_⟩, fun row hrow hne => ?_, fun row hrow heq => ?_⟩
  · exact List.contains_iff_mem.mp (hpaths.1 name hname)
  · exact List.contains_iff_mem.mp (hpaths.2 name hname)
  · exact (checkRow_ok (forM_ok hrows row hrow)).1 hne
  · exact (checkRow_ok (forM_ok hrows row hrow)).2 heq

omit [WheelReaders] in
theorem mem_fileNames {archive : Archive} {info : ZipInfo} (hinfo : info ∈ archive.infolist)
    (hfile : info.isDir = false) : info.filename ∈ archive.fileNames :=
  List.mem_map_of_mem (List.mem_filter.mpr ⟨hinfo, by rw [hfile]; rfl⟩)

omit [WheelReaders] in
theorem distInfo_ok {names : List Str} {found : DistInfo} (h : distInfo names = .ok found) :
    found.record ∈ names := by
  unfold distInfo at h
  dsimp only at h
  split at h
  · rename_i metadata wheel record license _ _ hrecord _
    cases h
    have hmem : record ∈ sortedNames (names.filter fun name =>
        endsWith name (lit ".dist-info/RECORD")) := by
      rw [hrecord]
      exact List.mem_singleton_self _
    exact (List.mem_filter.mp (mem_sortedNames.mp hmem)).1
  · cases h

/-- **What is known of a wheel that is accepted**: the names of its files are checked, and its
RECORD lists exactly its files, each with its digest and its size. -/
theorem validateWheel_ok [Crypto] {wheel : Except (Exc GateError) Archive}
    {repositoryLicense : Except (Exc GateError) Bytes} {u : Unit}
    (h : validateWheel wheel repositoryLicense = .ok u) : ∃ archive, wheel = .ok archive ∧
      ValidNames archive.fileNames ∧
      ∃ record rows, record ∈ archive.fileNames ∧
        ValidRecord archive archive.fileNames record rows := by
  unfold validateWheel at h
  split at h
  · rename_i hvalid
    obtain ⟨archive, hwheel, hvalid⟩ := bind_eq_ok.mp hvalid
    obtain ⟨_, hnames, hvalid⟩ := bind_eq_ok.mp hvalid
    obtain ⟨found, hfound, hvalid⟩ := bind_eq_ok.mp hvalid
    obtain ⟨_, -, hvalid⟩ := bind_eq_ok.mp hvalid
    obtain ⟨_, -, hvalid⟩ := bind_eq_ok.mp hvalid
    obtain ⟨_, -, hvalid⟩ := bind_eq_ok.mp hvalid
    obtain ⟨texts, -, hrecord⟩ := bind_eq_ok.mp hvalid
    obtain ⟨rows, -, hrows⟩ := checkRecord_ok hrecord
    exact ⟨archive, hwheel, checkNames_ok hnames, found.record, rows, distInfo_ok hfound, hrows⟩
  · cases h

end Readers

end CypherSyntax
