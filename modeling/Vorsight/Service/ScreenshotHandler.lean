/-
  FROM A SCREENSHOT MESSAGE TO ITS FILE (Vorsight.Service/Agents/ScreenshotHandler.cs), up to the
  write: the metadata, the duplicate filter and the name of the file.

  The name is made of the local date, the time to the second, and the window title, so two
  captures of one second with one title go to one file (`screenshotPath_same_second`).
-/
import Mathlib.Logic.Function.Basic
import Vorsight.Library.Time
import Vorsight.Ipc.PipeMessage

namespace Service.ScreenshotHandler

open Codec Ipc Time

/-! ## Metadata -/

/-- `part.Split(':', 2)`, if that gives two pieces. -/
def keyValue (part : List Char) : Option (String × String) :=
  match part.span (· ≠ ':') with
  | (_, []) => none
  | (key, _ :: value) => some (.ofList key, .ofList value)

structure Metadata where
  windowTitle : String := "Unknown"
  triggerType : String := "Auto"
deriving DecidableEq

def Metadata.set (m : Metadata) (part : List Char) : Metadata :=
  match keyValue part with
  | some ("Title", value) => { m with windowTitle := value }
  | some ("Type", value) => { m with triggerType := value }
  | _ => m

/-- `Title:…|Type:…`; the last one of a kind counts. -/
def parseMetadata : Option String → Metadata
  | none | some "" => {}
  | some metadata => (metadata.toList.splitOn '|').foldl .set {}

/-- `string.Equals(triggerType, "Manual", StringComparison.OrdinalIgnoreCase)`. -/
def isManual (triggerType : String) : Bool := triggerType.toList.map Char.toUpper = "MANUAL".toList

example : parseMetadata (some "Type:Manual|Title:C: drive") =
    { windowTitle := "C: drive", triggerType := "Manual" } := by decide

/-! ## Duplicates -/

/-- `IPerceptualHashService`, which decodes images: a hash (`none` is an exception), and whether
    two hashes are similar. -/
class PerceptualHashService where
  computeHash : Bytes → Option String
  isSimilar : String → String → Bool

/-- `_lastHashPerMachine`. -/
abbrev Hashes := String → Option String

/-- The duplicate check of an automatic capture: whether to skip it, and the hashes kept. -/
def checkDuplicate [PerceptualHashService] (payload : Bytes) (machineId : String)
    (last : Hashes) : Bool × Hashes :=
  match PerceptualHashService.computeHash payload with
  | none | some "" => (false, last)
  | some currentHash =>
    match last machineId with
    | some lastHash =>
      if PerceptualHashService.isSimilar currentHash lastHash then (true, last)
      else (false, Function.update last machineId (some currentHash))
    | none => (false, Function.update last machineId (some currentHash))

/-! ## The file -/

/-- `Path.GetInvalidFileNameChars()` on Windows. -/
def isInvalidFileNameChar (c : Char) : Bool :=
  c.toNat < 32 || c ∈ ['"', '<', '>', '|', ':', '*', '?', '\\', '/']

/-- The first `n` UTF-16 units; a pair cut in two shows as the replacement character. -/
def truncate : Nat → List Char → List Char
  | 0, _ => []
  | _, [] => []
  | 1, c :: _ => if c.toNat < 0x10000 then [c] else ['\ufffd']
  | n + 2, c :: cs =>
    if c.toNat < 0x10000 then c :: truncate (n + 1) cs else c :: truncate n cs

/-- `char.IsWhiteSpace`. -/
def isWhiteSpace (c : Char) : Bool :=
  c ∈ [' ', '\u0085', '\u00a0', '\u1680', '\u2028', '\u2029', '\u202f', '\u205f', '\u3000'] ||
    ('\t' ≤ c && c ≤ '\r') || ('\u2000' ≤ c && c ≤ '\u200a')

/-- Sanitize filename; at most 50 characters of the title. -/
def sanitizedTitle (windowTitle : String) : String :=
  let kept := truncate 50 (windowTitle.toList.filter fun c => !isInvalidFileNameChar c)
  if kept.all isWhiteSpace then "Unknown" else .ofList kept

/-- `GetScreenshotTempPath()`, the date folder and the file, with the two clock readings. -/
def screenshotPath (tempPath : String) (date time : Civil) (windowTitle : String) : String :=
  tempPath ++ "\\" ++ date.dateText ++ "\\" ++ time.timeText ++ " - " ++
    sanitizedTitle windowTitle ++ ".png"

/-- Two captures of one title within one second of the clock have one file. -/
theorem screenshotPath_same_second (tempPath windowTitle : String) {ms ms' : Int}
    (h : ms / 1000 = ms' / 1000) :
    screenshotPath tempPath (ofMillis ms) (ofMillis ms) windowTitle =
      screenshotPath tempPath (ofMillis ms') (ofMillis ms') windowTitle := by
  obtain ⟨hdate, htime⟩ := text_of_same_second h
  rw [screenshotPath, screenshotPath, hdate, htime]

/-- What the message is written to, if it is not skipped, and the hashes kept. -/
def accept [PerceptualHashService] (tempPath : String) (filterDuplicates : Bool)
    (machineId : String) (date time : Civil) (message : PipeMessage) (last : Hashes) :
    Option (String × Bytes) × Hashes :=
  match message.payload with
  | none | some [] => (none, last)
  | some payload =>
    let metadata := parseMetadata message.metadata
    let (skip, last) :=
      if filterDuplicates && !isManual metadata.triggerType then
        checkDuplicate payload machineId last
      else (false, last)
    if skip then (none, last)
    else (some (screenshotPath tempPath date time metadata.windowTitle, payload), last)

end Service.ScreenshotHandler
