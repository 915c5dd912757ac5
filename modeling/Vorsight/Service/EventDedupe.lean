/-
  THE DEDUPLICATION OF AUDIT EVENTS, over whole runs
  (Vorsight.Infrastructure/Audit/AuditManager.cs).

  `IsDuplicate` is a filter of recent keys (`isDuplicate_eq`), and its key joins the event's id,
  user and displayed second.  The user's name may contain the separator, but neither an id of digits
  nor a second does, so that a key stands for one such event (`getEventHash_eq_iff`): the first
  separator ends the id, and the last one begins the second.

  `suppresses_iff`: what a call returns, and what the map holds after it.
-/
import Vorsight.Library.RecentKeys
import Vorsight.Service.AuditManager

namespace Service.EventDedupe

open Vorsight.AuditManager

/-! ## Keys -/

/-- The id is written in digits. -/
def Decimal (evt : AuditEventPayload) : Prop := ∀ c ∈ evt.eventId.toList, c.isDigit = true

/-- The same event id, user name and displayed second. -/
def SameEvent (a b : AuditEventPayload) : Prop :=
  a.eventId = b.eventId ∧ a.username = b.username ∧
    a.timestamp.civil.secondText = b.timestamp.civil.secondText

/-- What is before the first separator. -/
theorem append_cons_inj_left {c : Char} : ∀ {a a' z z' : List Char}, c ∉ a → c ∉ a' →
    a ++ c :: z = a' ++ c :: z' → a = a' ∧ z = z'
  | [], [], _, _, _, _, h => ⟨rfl, (List.cons.inj h).2⟩
  | [], d :: a', _, _, _, ha', h => absurd (List.cons.inj h).1 fun hc => ha' (by simp [hc])
  | d :: a, [], _, _, ha, _, h => absurd (List.cons.inj h).1 fun hc => ha (by simp [hc])
  | d :: a, d' :: a', z, z', ha, ha', h => by
    obtain ⟨hhead, htail⟩ := List.cons.inj h
    rw [List.mem_cons, not_or] at ha ha'
    obtain ⟨hrest, hz⟩ := append_cons_inj_left ha.2 ha'.2 htail
    exact ⟨by rw [hhead, hrest], hz⟩

/-- What is after the last one. -/
theorem append_cons_inj_right {c : Char} {a a' z z' : List Char} (hz : c ∉ z) (hz' : c ∉ z')
    (h : a ++ c :: z = a' ++ c :: z') : a = a' ∧ z = z' := by
  have hreverse : z.reverse ++ c :: a.reverse = z'.reverse ++ c :: a'.reverse := by
    have hboth := congrArg List.reverse h
    simpa using hboth
  obtain ⟨hzs, has⟩ := append_cons_inj_left (by simpa using hz) (by simpa using hz') hreverse
  exact ⟨List.reverse_inj.mp has, List.reverse_inj.mp hzs⟩

theorem toList_getEventHash (evt : AuditEventPayload) : (getEventHash evt).toList =
    evt.eventId.toList ++ '_' :: (evt.username.toList ++ '_' ::
      evt.timestamp.civil.secondText.toList) := by
  simp [getEventHash, String.toList_append]

/-- **A key stands for one event.** -/
theorem getEventHash_eq_iff {a b : AuditEventPayload} (ha : Decimal a) (hb : Decimal b) :
    getEventHash a = getEventHash b ↔ SameEvent a b := by
  constructor
  · intro h
    have hchars := congrArg String.toList h
    rw [toList_getEventHash, toList_getEventHash] at hchars
    have hdigit : ∀ {cs : List Char}, (∀ c ∈ cs, c.isDigit = true) → '_' ∉ cs :=
      fun hcs hmem => absurd (hcs '_' hmem) (by decide)
    obtain ⟨hid, hrest⟩ := append_cons_inj_left (hdigit ha) (hdigit hb) hchars
    obtain ⟨huser, hsecond⟩ := append_cons_inj_right
      (hdigit fun _ => Time.Civil.isDigit_of_mem_secondText)
      (hdigit fun _ => Time.Civil.isDigit_of_mem_secondText) hrest
    exact ⟨String.toList_inj.mp hid, String.toList_inj.mp huser, String.toList_inj.mp hsecond⟩
  · rintro ⟨hid, huser, hsecond⟩
    rw [getEventHash, getEventHash, hid, huser, hsecond]

/-! ## Runs -/

/-- A call of `IsDuplicate`: the clock and the event. -/
abbrev Call := DateTimeOffset × AuditEventPayload

/-- A call, with the calls that have been accepted. -/
def record (s : RecentHashes × List Call) (call : Call) : RecentHashes × List Call :=
  let (duplicate, recent) := isDuplicate s.1 call.1 call.2
  (recent, if duplicate then s.2 else s.2 ++ [call])

def run (calls : List Call) : RecentHashes × List Call := calls.foldl record ([], [])

/-- `_recentEventHashes` after some calls. -/
def recentEventHashes (calls : List Call) : RecentHashes := (run calls).1

/-- The calls that have returned false, in order. -/
def accepted (calls : List Call) : List Call := (run calls).2

/-- `IsDuplicate` is a filter of recent keys. -/
theorem isDuplicate_eq : isDuplicate =
    RecentKeys.see DateTimeOffset.ticks getEventHash dedupeWindow := rfl

theorem run_eq : run = RecentKeys.run DateTimeOffset.ticks getEventHash dedupeWindow := rfl

theorem accepted_concat (calls : List Call) (call : Call) : accepted (calls ++ [call]) =
    if (isDuplicate (recentEventHashes calls) call.1 call.2).1 then accepted calls
    else accepted calls ++ [call] := by
  rw [accepted, run, List.foldl_append]
  rfl

/-- **The deduplication suppresses exactly repeats in the window**, by a clock that does not go
    back: a call returns true exactly when the same event was accepted at most five seconds earlier,
    and then counts for nothing later; and after a call the map has, once each, the keys of what was
    accepted in the last five seconds, and no more entries than there were calls in them. -/
theorem suppresses_iff {calls : List Call} {now : DateTimeOffset} {evt : AuditEventPayload}
    (hclock : (calls ++ [(now, evt)]).Pairwise fun a b => a.1.ticks ≤ b.1.ticks)
    (hdecimal : ∀ call ∈ calls ++ [(now, evt)], Decimal call.2) :
    ((isDuplicate (recentEventHashes calls) now evt).1 = true ↔
      ∃ call ∈ accepted calls, SameEvent call.2 evt ∧ now.ticks - call.1.ticks ≤ dedupeWindow) ∧
    accepted (calls ++ [(now, evt)]) =
      (if (isDuplicate (recentEventHashes calls) now evt).1 then accepted calls
      else accepted calls ++ [(now, evt)]) ∧
    recentEventHashes (calls ++ [(now, evt)]) =
      ((accepted (calls ++ [(now, evt)])).filter
        fun call => now.ticks - call.1.ticks ≤ dedupeWindow).map
        (fun call => (getEventHash call.2, call.1)) ∧
    ((recentEventHashes (calls ++ [(now, evt)])).map (·.1)).Nodup ∧
    (recentEventHashes (calls ++ [(now, evt)])).length ≤
      (calls ++ [(now, evt)]).countP fun call => now.ticks - call.1.ticks ≤ dedupeWindow := by
  have hkept : recentEventHashes (calls ++ [(now, evt)]) =
      ((accepted (calls ++ [(now, evt)])).filter
        fun call => now.ticks - call.1.ticks ≤ dedupeWindow).map
        fun call => (getEventHash call.2, call.1) :=
    RecentKeys.kept_eq (by decide) hclock
  refine ⟨?_, accepted_concat calls (now, evt), hkept, RecentKeys.nodup_keys, ?_⟩
  · rw [isDuplicate_eq, recentEventHashes, run_eq, RecentKeys.seen_iff hclock]
    constructor
    · rintro ⟨call, hcall, hkey, hin⟩
      have hmem := (RecentKeys.passed_sublist.subset hcall)
      refine ⟨call, hcall, (getEventHash_eq_iff ?_ ?_).mp hkey, hin⟩
      · exact hdecimal call (List.mem_append_left _ hmem)
      · exact hdecimal (now, evt) (by simp)
    · rintro ⟨call, hcall, hsame, hin⟩
      have hmem := (RecentKeys.passed_sublist.subset hcall)
      refine ⟨call, hcall, (getEventHash_eq_iff ?_ ?_).mpr hsame, hin⟩
      · exact hdecimal call (List.mem_append_left _ hmem)
      · exact hdecimal (now, evt) (by simp)
  · rw [hkept, List.length_map, ← List.countP_eq_length_filter]
    exact List.Sublist.countP_le RecentKeys.passed_sublist

/-- An account is created by a user whose name has the separator in it. -/
def accountCreated : AuditEventPayload where
  timestamp := { ticks := 0 }
  eventId := "4720"
  eventType := "User Account Created"
  sourceLogName := "Security"
  username := "help_desk"
  details := ""
  isFlagged := false

/-- It is reported again three seconds later. -/
theorem suppressed_threeSeconds :
    (isDuplicate (recentEventHashes [({ ticks := 0 }, accountCreated)]) { ticks := 30000000 }
      accountCreated).1 = true := by
  have hdecimal : ∀ call ∈ [(({ ticks := 0 } : DateTimeOffset), accountCreated)] ++
      [({ ticks := 30000000 }, accountCreated)], Decimal call.2 := by
    intro call hcall
    have hevent : call.2 = accountCreated := by
      rcases List.mem_append.mp hcall with h | h
      · rw [List.mem_singleton.mp h]
      · rw [List.mem_singleton.mp h]
    rw [hevent]
    intro c hc
    have hchars : accountCreated.eventId.toList = ['4', '7', '2', '0'] := rfl
    rw [hchars] at hc
    simp only [List.mem_cons, List.not_mem_nil, or_false] at hc
    rcases hc with rfl | rfl | rfl | rfl <;> rfl
  exact (suppresses_iff (by decide) hdecimal).1.mpr
    ⟨_, List.mem_cons_self, ⟨rfl, rfl, rfl⟩, by decide⟩

end Service.EventDedupe
