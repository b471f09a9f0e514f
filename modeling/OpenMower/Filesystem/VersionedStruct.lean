import OpenMower.JsonStream
import OpenMower.Library.Buffer
import OpenMower.Portable.Integers

/-!
# Settings on the flash

From `filesystem/versioned_struct.hpp` and `filesystem/file`. littlefs is not part of the
repository: a save or a load is given what each of its calls returns, and a read also what it writes
to its target. The calls that a save makes are recorded, so that it can be said what they have done
to the file.

A struct is the memory from its first byte on, so that a write behind its end stays visible. The
results of `sync`, `seek` and `close` are ignored by the code and left out.
-/

namespace OpenMower

open Buffer

/-- An `int` that littlefs returns. -/
abbrev LfsResult := BitVec 32

/-- `LFS_ERR_OK`. -/
def lfsErrOk : LfsResult := 0#32

/-- `LFS_ERR_EXIST`. -/
def lfsErrExist : LfsResult := -17#32

/-- `LFS_ERR_INVAL`. -/
def lfsErrInval : LfsResult := -22#32

/-- The conversion of an `int` to `bool`. -/
def LfsResult.toBool (r : LfsResult) : Bool := decide (r ≠ 0#32)

/-- The calls of a save, with their results. -/
inductive LfsCall
  | mkdir (path : CString) (result : LfsResult)
  | openFile (result : LfsResult)
  | write (data : List Byte) (result : LfsResult)
  | sync
  deriving DecidableEq

/-! ### `File::mkdirp` -/

namespace File

/-- The search for the last slash, from the character with this number on. -/
def lastSlash (i : ℕ) (last : Option ℕ) : CString → Option ℕ
  | [] => last
  | c :: path => lastSlash (i + 1) (if c = '/' then some i else last) path

/-- The prefixes of a path up to its slashes, except for the one at the front. -/
def prefixes (path : CString) : List CString :=
  ((List.range path.length).filter fun i => decide (1 ≤ i ∧ path[i]? = some '/')).map path.take

/-- `temp_path`, with the filename cut off. -/
def tempPath (path : CString) : CString :=
  let temp := path.take 255
  match lastSlash 0 none temp with
  | some i => if 0 < i then temp.take i else temp
  | none => temp

/-- The directories that `mkdirp` creates, in this order. -/
def mkdirpDirs (path : CString) : List CString := prefixes (tempPath path) ++ [tempPath path]

variable (mkdir : CString → LfsResult)

/-- The loop over the parent directories. -/
def mkdirLoop : List CString → LfsResult × List LfsCall
  | [] => (lfsErrOk, [])
  | dir :: dirs =>
    let result := mkdir dir
    if result ≠ lfsErrOk ∧ result ≠ lfsErrExist then (result, [.mkdir dir result])
    else ((mkdirLoop dirs).1, .mkdir dir result :: (mkdirLoop dirs).2)

/-- `File::mkdirp`. -/
def mkdirp (path : CString) : LfsResult × List LfsCall :=
  if path.head? ≠ some '/' then (lfsErrInval, [])
  else
    let temp := tempPath path
    let parents := mkdirLoop mkdir (prefixes temp)
    if parents.1 ≠ lfsErrOk then parents
    else
      let result := mkdir temp
      (if result = lfsErrExist then lfsErrOk else result, parents.2 ++ [.mkdir temp result])

end File

/-! ### `VersionedStruct` -/

/-- A struct type with `VERSIONED_STRUCT_FIELDS` and a `PATH`. -/
structure VersionedType where
  /-- `sizeof(T)`. -/
  size : ℕ
  /-- `T::VERSION`. -/
  version : BitVec 16
  /-- `T::PATH`. -/
  path : CString
  two_le_size : 2 ≤ size
  size_lt : size < 2 ^ 31
  path_absolute : path.head? = some '/'
  path_lt : path.length < 256

/-- The `uint16_t` in two bytes, the low one first. -/
def versionField (low high : Byte) : BitVec 16 := high.setWidth 16 <<< 8 ||| low.setWidth 16

/-- What a save gets from littlefs. -/
structure SaveOutcome where
  mkdir : CString → LfsResult
  openFile : LfsResult
  write : LfsResult

/-- What a read of `n` bytes returns, and the bytes that it has written to its target. -/
structure ReadOutcome (n : ℕ) where
  result : LfsResult
  data : List Byte
  length_le : data.length ≤ n
  length_eq : result.toNat = n → data.length = n

/-- What a load gets from littlefs. -/
structure LoadOutcome where
  openFile : LfsResult
  readVersion : ReadOutcome 2
  size : LfsResult
  readPayload : (n : ℕ) → ReadOutcome n

namespace VersionedType

variable (T : VersionedType)

/-- `VersionedStruct<T>::Save`. -/
def save (fs : SaveOutcome) (src : ℕ → Byte) : Bool × List LfsCall :=
  let mkdirpResult := File.mkdirp fs.mkdir T.path
  -- the results are integers, and returned as a `bool`
  if mkdirpResult.1 ≠ lfsErrOk then (mkdirpResult.1.toBool, mkdirpResult.2)
  else if fs.openFile ≠ lfsErrOk then
    (fs.openFile.toBool, mkdirpResult.2 ++ [.openFile fs.openFile])
  else
    let calls := mkdirpResult.2 ++ [.openFile fs.openFile, .write (slice src 0 T.size) fs.write]
    if fs.write ≠ BitVec.ofNat 32 T.size then (false, calls)
    else (true, calls ++ [.sync])

/-- `file_version`, when it has been read. -/
def fileVersion (data : List Byte) : BitVec 16 := versionField (data.getD 0 0#8) (data.getD 1 0#8)

/-- `bytes_to_read`. -/
def bytesToRead (remainingBytes : BitVec 32) : ℕ :=
  if remainingBytes.toNat < T.size - 2 then remainingBytes.toNat else T.size - 2

/-- `VersionedStruct<T>::Load`. -/
def load (fs : LoadOutcome) (dest : ℕ → Byte) : Bool × (ℕ → Byte) :=
  if fs.openFile ≠ lfsErrOk then (false, dest)
  else if fs.readVersion.result ≠ 2#32 then (false, dest)
  else if T.version < fileVersion fs.readVersion.data then (false, dest)
  else
    let remainingBytes := fs.size - 2#32
    -- `lfs_soff_t` is signed
    if 0 < remainingBytes.toInt then
      let payload := fs.readPayload (T.bytesToRead remainingBytes)
      let dest := writeAt dest 2 payload.data
      if payload.result ≠ BitVec.ofNat 32 (T.bytesToRead remainingBytes) then (false, dest)
      else (true, dest)
    else (true, dest)

end VersionedType

/-! ### The settings of the Sabo robot -/

/-- `LCDSettings`. -/
def lcdSettings : VersionedType where
  size := 5
  version := 1#16
  path := "/cfg/sabo/lcd.bin".toList
  two_le_size := by decide
  size_lt := by decide
  path_absolute := rfl
  path_lt := by decide

/-- `GPSSettings`. -/
def gpsSettings : VersionedType where
  size := 8
  version := 1#16
  path := "/cfg/sabo/gps.bin".toList
  two_le_size := by decide
  size_lt := by decide
  path_absolute := rfl
  path_lt := by decide

/-- The protocol, the UART and the baud rate of a GPS receiver. -/
@[ext]
structure GpsConfig where
  protocol : Byte
  uart : Byte
  baudrate : BitVec 32
  deriving DecidableEq

/-- The bytes of `GPSSettings` with these values. -/
def GpsConfig.settings (config : GpsConfig) : ℕ → Byte :=
  writeAt (fun _ => 0#8) 0 [gpsSettings.version.setWidth 8, (gpsSettings.version >>> 8).setWidth 8,
    config.protocol, config.uart, config.baudrate.setWidth 8, (config.baudrate >>> 8).setWidth 8,
    (config.baudrate >>> 16).setWidth 8, (config.baudrate >>> 24).setWidth 8]

/-- `SaboRobot::SaveGpsSettings`. -/
def saveGpsSettings (fs : SaveOutcome) (config : GpsConfig) : Bool × List LfsCall :=
  gpsSettings.save fs config.settings

/-- How `OnStart` ends. -/
inductive GpsStart
  | returned (ok : Bool)
  /-- `NVIC_SystemReset`. -/
  | reset
  deriving DecidableEq

/-- `GpsService::OnStart` on the Sabo robot, given what the driver runs with, if there is one, and
whether a new one can be started. -/
def gpsServiceOnStart (fs : SaveOutcome) (loadAndStartGpsDriver : GpsConfig → Bool)
    (gpsDriver : Option GpsConfig) (config : GpsConfig) : GpsStart × List LfsCall :=
  match gpsDriver with
  | none => (.returned (loadAndStartGpsDriver config), [])
  | some running =>
    if running.protocol ≠ config.protocol ∨ running.uart ≠ config.uart ∨
        running.baudrate ≠ config.baudrate then
      let saved := saveGpsSettings fs config
      if saved.1 = false then (.returned false, saved.2) else (.reset, saved.2)
    else (.returned true, [])

/-! ### The files -/

/-- What a call of a save does to the file: the open truncates or creates it, and the write appends
as many bytes as it returns. -/
def LfsCall.apply (file : Option (List Byte)) : LfsCall → Option (List Byte)
  | .openFile result => if result = lfsErrOk then some [] else file
  | .write data result => file.map (· ++ data.take result.toNat)
  | _ => file

/-- The file after these calls. -/
def fileAfter (file : Option (List Byte)) (calls : List LfsCall) : Option (List Byte) :=
  calls.foldl LfsCall.apply file

/-- A file that littlefs can hold, whose size fits a `lfs_soff_t`. -/
structure LfsFile where
  bytes : List Byte
  length_lt : bytes.length < 2 ^ 31

namespace LfsFile

variable (file : LfsFile)

/-- A successful read of at most `n` bytes from a position on. -/
def read (start n : ℕ) : ReadOutcome n where
  result := BitVec.ofNat 32 ((file.bytes.drop start).take n).length
  data := (file.bytes.drop start).take n
  length_le := by simp
  length_eq h := by
    have hlt := file.length_lt
    rw [BitVec.toNat_ofNat, Nat.mod_eq_of_lt] at h
    · exact h
    · rw [List.length_take, List.length_drop]
      omega

/-- Every call of a load succeeds, and the reads return what is in the file. -/
def loaded : LoadOutcome where
  openFile := lfsErrOk
  readVersion := file.read 0 2
  size := BitVec.ofNat 32 file.bytes.length
  readPayload := file.read 2

end LfsFile

end OpenMower
