/-
  HOW THE COORDINATOR TILES THE TIMELINE, whether or not the server is connected.

  Start, title and process of the open run are fields that change with the title only.  For samples
  in the order of their times, and any pattern of the connection:

  1. **Specification** — the samples fall into maximal runs with one title (`runs`).  One payload is
     sent between each two consecutive runs, if the connection is up when the second begins and the
     first has a length (`payloads`).  Samples outside the calendar are refused, and a start at its
     very beginning stands for none, so these do not count (`admitted`).

  2. `foldl_loop`: the coordinator's fields say how the open run began, whatever has been sent.

  3. `tiles`: what is sent is what the runs say; the intervals follow one another without overlap,
     and where nothing is left out they add up to the time since the first sample.
-/
import Mathlib.Data.List.SplitBy
import Vorsight.Service.ActivitySpells

namespace Service.ActivityTiling

open Time ActivityCoordinator

/-! ## Runs -/

/-- A sample, and whether the server is connected when it comes. -/
structure Observation where
  data : ActivityData
  isConnected : Bool
deriving DecidableEq, Repr

/-- In the calendar, after `DateTime.MinValue`. -/
def Admitted (x : Observation) : Prop :=
  -62135596800 < x.data.timestamp ∧ x.data.timestamp ≤ 253402300799

instance (x : Observation) : Decidable (Admitted x) := inferInstanceAs (Decidable (_ ∧ _))

def admitted (xs : List Observation) : List Observation := xs.filter fun x => Admitted x

def sameTitle (x y : Observation) : Bool := x.data.activeWindow = y.data.activeWindow

/-- The maximal runs of consecutive samples with one title. -/
def runs (xs : List Observation) : List (List Observation) := (admitted xs).splitBy sameTitle

/-- What is sent of a run when the next one begins. -/
def payloadAt (user : String) : List Observation → List Observation → List ActivityPayload
  | x :: _, y :: _ =>
    if y.isConnected = true ∧ x.data.timestamp < y.data.timestamp then
      [{ timestamp := timeOf x.data
         activeWindow := x.data.activeWindow
         processName := x.data.processName
         duration := toInt32 (y.data.timestamp - x.data.timestamp)
         username := if user ≠ "" then user else y.data.username }]
    else []
  | _, _ => []

/-- What is sent of the runs, but for the last one. -/
def payloads (user : String) : List (List Observation) → List ActivityPayload
  | run :: next :: rest => payloadAt user run next ++ payloads user (next :: rest)
  | _ => []

/-- The user of the first sample. -/
def firstUser (xs : List Observation) : String :=
  ((admitted xs).head?.map (·.data.username)).getD ""

def receive (s : State) (x : Observation) : State := s.updateActivity x.data x.isConnected

/-- The coordinator after the samples. -/
def after (xs : List Observation) : State := xs.foldl receive {}

/-- No run that has ended is longer than an `int` can say. -/
def Short (rs : List (List Observation)) : Prop :=
  rs.IsChain fun run next => ∀ x ∈ run.head?, ∀ y ∈ next.head?,
    y.data.timestamp - x.data.timestamp ≤ 2147483647

/-- The seconds of the payloads together. -/
def totalDuration : List ActivityPayload → Int
  | [] => 0
  | p :: ps => p.duration + totalDuration ps

/-- An interval ends before another begins. -/
def Before (p q : ActivityPayload) : Prop :=
  (p.timestamp.ticks : Int) + p.duration * ticksPerSecond ≤ q.timestamp.ticks

/-! ## Lists of runs -/

variable {user : String} {x y last opening : Observation} {xs : List Observation} {s : State}
  {run next : List Observation} {rs gs : List (List Observation)}

/-- One more run, and what is sent of the one before it. -/
theorem payloads_concat : ∀ rs : List (List Observation),
    payloads user (rs ++ [run, next]) =
      payloads user (rs ++ [run]) ++ payloadAt user run next
  | [] => List.append_nil _
  | [r] => by
    show payloadAt user r run ++ (payloadAt user run next ++ []) =
      payloadAt user r run ++ [] ++ payloadAt user run next
    rw [List.append_nil, List.append_nil]
  | r :: r' :: rs => by
    have ih := payloads_concat (r' :: rs)
    show payloadAt user r r' ++ payloads user (r' :: rs ++ [run, next]) = _
    rw [ih, ← List.append_assoc]
    rfl

/-- A run is told by how it began. -/
theorem payloadAt_append (hrun : run ≠ []) (hnext : next ≠ []) (more : List Observation) :
    payloadAt user run (next ++ more) = payloadAt user run next := by
  cases run with
  | nil => exact absurd rfl hrun
  | cons x run =>
    cases next with
    | nil => exact absurd rfl hnext
    | cons y next => rfl

theorem payloads_append (hrun : run ≠ []) (more : List Observation) :
    ∀ rs : List (List Observation), [] ∉ rs →
      payloads user (rs ++ [run ++ more]) = payloads user (rs ++ [run])
  | [], _ => rfl
  | [r], hrs => by
    have hr : r ≠ [] := fun h => hrs (by rw [h]; exact List.mem_cons_self)
    show payloadAt user r (run ++ more) ++ [] = payloadAt user r run ++ []
    rw [payloadAt_append hr hrun]
  | r :: r' :: rs, hrs => by
    have ih := payloads_append hrun more (r' :: rs) fun h => hrs (List.mem_cons_of_mem r h)
    show payloadAt user r r' ++ payloads user (r' :: rs ++ [run ++ more]) = _
    rw [ih]
    rfl

/-! ## The open run -/

/-- The coordinator after the runs `rs`, the last of which is open. -/
structure Told (user : String) (rs : List (List Observation)) (s : State) : Prop where
  tracking : ∃ opening, rs.getLast?.bind List.head? = some opening ∧ Admitted opening ∧
    Tracking user opening.data s
  activities : s.activities = payloads user rs

/-- A sample either belongs to the open run or begins the next one. -/
theorem told_receive {g : List Observation} (h : Told user (gs.reverse ++ [(last :: g).reverse]) s)
    (hgs : [] ∉ gs) (htitle : ∀ y ∈ g, y.data.activeWindow = last.data.activeWindow)
    (hx : Admitted x) :
    if sameTitle last x = true then
      Told user (gs.reverse ++ [(x :: last :: g).reverse]) (receive s x)
    else Told user (gs.reverse ++ [(last :: g).reverse, [x]]) (receive s x) := by
  obtain ⟨⟨opening, hopening, hadmitted, htracking⟩, hactivities⟩ := h
  rw [List.getLast?_concat] at hopening
  have hhead : (last :: g).reverse.head? = some opening := hopening
  have hne : (last :: g).reverse ≠ [] := by simp
  have hmem : opening ∈ last :: g := List.mem_reverse.mp (List.mem_of_mem_head? hhead)
  have hsame : opening.data.activeWindow = last.data.activeWindow := by
    rcases List.mem_cons.mp hmem with rfl | hmem
    · rfl
    · exact htitle opening hmem
  have hstep := updateActivity_tracking htracking hadmitted hx x.isConnected []
  rw [hsame] at hstep
  by_cases hwindow : x.data.activeWindow = last.data.activeWindow
  · have hlast : sameTitle last x = true := by simp [sameTitle, hwindow]
    rw [if_pos hwindow] at hstep
    rw [if_pos hlast, List.reverse_cons]
    refine ⟨⟨opening, ?_, hadmitted, hstep.1⟩, ?_⟩
    · rw [List.getLast?_concat]
      show ((last :: g).reverse ++ [x]).head? = some opening
      rw [List.head?_append, hhead]
      rfl
    · rw [payloads_append hne [x] _ (by simpa using hgs), ← hactivities]
      exact hstep.2
  · have hlast : ¬ sameTitle last x = true := by
      simpa [sameTitle, eq_comm] using hwindow
    rw [if_neg hwindow] at hstep
    rw [if_neg hlast]
    refine ⟨⟨x, ?_, hx, hstep.1⟩, ?_⟩
    · rw [List.getLast?_append]
      rfl
    · rw [payloads_concat, ← hactivities]
      obtain ⟨rest, hrest⟩ : ∃ rest, (last :: g).reverse = opening :: rest :=
        List.head?_eq_some_iff.mp hhead
      rw [hrest]
      exact hstep.2

/-- **The open run is told**, over all samples that count. -/
theorem foldl_loop : ∀ (xs : List Observation) {g : List Observation} {last : Observation}
    {gs : List (List Observation)} {s : State},
    Told user (gs.reverse ++ [(last :: g).reverse]) s → [] ∉ gs →
      (∀ y ∈ g, y.data.activeWindow = last.data.activeWindow) → (∀ x ∈ xs, Admitted x) →
        Told user (List.splitBy.loop sameTitle xs last g gs) (xs.foldl receive s)
  | [], g, last, gs, s, h, _, _, _ => by
    rw [List.splitBy.loop, List.reverse_cons]
    exact h
  | x :: xs, g, last, gs, s, h, hgs, htitle, hadmitted => by
    have hx : Admitted x := hadmitted x List.mem_cons_self
    have hxs : ∀ y ∈ xs, Admitted y := fun y hy => hadmitted y (List.mem_cons_of_mem x hy)
    have hstep := told_receive h hgs htitle hx
    rw [List.splitBy.loop, List.foldl_cons]
    cases hsame : sameTitle last x with
    | true =>
      rw [if_pos hsame] at hstep
      have hlast : last.data.activeWindow = x.data.activeWindow := by
        simpa [sameTitle] using hsame
      refine foldl_loop xs hstep hgs ?_ hxs
      intro y hy
      rcases List.mem_cons.mp hy with rfl | hy
      · exact hlast
      · exact (htitle y hy).trans hlast
    | false =>
      rw [if_neg (by simp [hsame])] at hstep
      refine foldl_loop xs ?_ ?_ (by simp) hxs
      · rw [List.reverse_cons, List.append_assoc]
        exact hstep
      · simpa using hgs

/-! ## What does not count -/

/-- From a start in the calendar on, a sample that does not count changes nothing. -/
theorem foldl_admitted : ∀ (xs : List Observation) (s : State),
    (∀ x ∈ xs, -62135596800 < x.data.timestamp) →
      xs.foldl receive s = (admitted xs).foldl receive s
  | [], _, _ => rfl
  | x :: xs, s, h => by
    have hx : -62135596800 < x.data.timestamp := h x List.mem_cons_self
    have ih := foldl_admitted xs (receive s x) fun y hy => h y (List.mem_cons_of_mem x hy)
    rw [List.foldl_cons, ih]
    unfold admitted
    by_cases hadmitted : Admitted x
    · rw [List.filter_cons_of_pos (by simpa using hadmitted), List.foldl_cons]
    · rw [List.filter_cons_of_neg (by simpa using hadmitted)]
      rcases time_untracked hadmitted with hnone | ⟨hmin, -⟩
      · rw [receive, updateActivity_none hnone]
      · omega

theorem told_start : ∀ (xs : List Observation) (s : State), s.currentActivityStart = .minValue →
    s.activities = [] → xs.Pairwise (fun x y => x.data.timestamp ≤ y.data.timestamp) →
      admitted xs = [] ∧ (xs.foldl receive s).activities = [] ∨
        Told (firstUser xs) (runs xs) (xs.foldl receive s)
  | [], _, _, hactivities, _ => Or.inl ⟨rfl, hactivities⟩
  | x :: xs, s, hstart, hactivities, hsorted => by
    obtain ⟨hbefore, hsorted⟩ := List.pairwise_cons.mp hsorted
    rw [List.foldl_cons]
    by_cases hx : Admitted x
    · right
      have hadmitted : admitted (x :: xs) = x :: admitted xs :=
        List.filter_cons_of_pos (by simpa using hx)
      have huser : firstUser (x :: xs) = x.data.username := by
        unfold firstUser
        rw [hadmitted]
        rfl
      have hruns : runs (x :: xs) = List.splitBy.loop sameTitle (admitted xs) x [] [] := by
        unfold runs
        rw [hadmitted]
        rfl
      obtain ⟨htracking, hfirst⟩ := updateActivity_first hstart hx x.isConnected
      have htold : Told x.data.username [[x]] (receive s x) :=
        ⟨⟨x, rfl, hx, htracking⟩, hfirst.trans hactivities⟩
      have hlater : ∀ y ∈ xs, -62135596800 < y.data.timestamp := by
        intro y hy
        have hle := hbefore y hy
        have hpos := hx.1
        omega
      rw [huser, hruns, foldl_admitted xs _ hlater]
      refine foldl_loop (admitted xs) htold List.not_mem_nil (fun y hy => by cases hy) ?_
      intro y hy
      simpa using (List.mem_filter.mp hy).2
    · have hadmitted : admitted (x :: xs) = admitted xs :=
        List.filter_cons_of_neg (by simpa using hx)
      have huser : firstUser (x :: xs) = firstUser xs := by
        unfold firstUser
        rw [hadmitted]
      have hruns : runs (x :: xs) = runs xs := by
        unfold runs
        rw [hadmitted]
      obtain ⟨hstart', hsame⟩ := updateActivity_untracked hstart hx x.isConnected
      rw [huser, hruns, hadmitted]
      exact told_start xs (receive s x) hstart' (hsame.trans hactivities) hsorted

/-! ## Intervals -/

/-- A run holds samples of the calendar, and they are in order. -/
def InOrder (rs : List (List Observation)) : Prop :=
  (∀ x ∈ rs.flatten, Admitted x) ∧
    rs.flatten.Pairwise fun x y => x.data.timestamp ≤ y.data.timestamp

theorem inOrder_runs (hsorted : xs.Pairwise fun x y => x.data.timestamp ≤ y.data.timestamp) :
    InOrder (runs xs) := by
  unfold InOrder runs
  rw [List.flatten_splitBy]
  refine ⟨fun x hx => ?_, hsorted.sublist List.filter_sublist⟩
  simpa using (List.mem_filter.mp hx).2

theorem InOrder.tail (h : InOrder (run :: rs)) : InOrder rs := by
  obtain ⟨hadmitted, hsorted⟩ := h
  rw [List.flatten_cons] at hadmitted hsorted
  exact ⟨fun x hx => hadmitted x (List.mem_append_right _ hx),
    (List.pairwise_append.mp hsorted).2.1⟩

/-- What is sent between two runs lies between their starts. -/
theorem mem_payloadAt {p : ActivityPayload} (hx : Admitted x) (hy : Admitted y)
    (hp : p ∈ payloadAt user (x :: run) (y :: next)) :
    p.timestamp = timeOf x.data ∧
      (p.timestamp.ticks : Int) + p.duration * ticksPerSecond ≤ (timeOf y.data).ticks := by
  rw [payloadAt] at hp
  split at hp
  · rename_i hsent
    rw [List.mem_singleton] at hp
    subst hp
    have hcap := (toInt32_pos (x := y.data.timestamp - x.data.timestamp) (by omega)).2
    have hticks := (time_tracked hx).2
    have hticks' := (time_tracked hy).2
    refine ⟨rfl, ?_⟩
    show ((timeOf x.data).ticks : Int) + toInt32 (y.data.timestamp - x.data.timestamp) *
      ticksPerSecond ≤ _
    unfold ticksPerSecond
    omega
  · cases hp

/-- The payloads of runs that begin at `x`: none before it, and one after another. -/
theorem ordered_payloads : ∀ (rs : List (List Observation)) {x : Observation}
    {run : List Observation}, InOrder ((x :: run) :: rs) → [] ∉ rs →
      (∀ p ∈ payloads user ((x :: run) :: rs), (timeOf x.data).ticks ≤ p.timestamp.ticks) ∧
        (payloads user ((x :: run) :: rs)).Pairwise Before
  | [], _, _, _, _ => ⟨fun p hp => absurd hp List.not_mem_nil, List.Pairwise.nil⟩
  | [] :: rs, _, _, _, hne => absurd List.mem_cons_self hne
  | (y :: next) :: rs, x, run, h, hne => by
    have hx : Admitted x := h.1 x (by simp)
    have hy : Admitted y := h.1 y (by simp)
    have hle : x.data.timestamp ≤ y.data.timestamp := by
      have hsorted := h.2
      rw [List.flatten_cons, List.cons_append] at hsorted
      exact (List.pairwise_cons.mp hsorted).1 y (by simp)
    have hticks := (time_tracked hx).2
    have hticks' := (time_tracked hy).2
    obtain ⟨hlower, hpairs⟩ :=
      ordered_payloads rs h.tail fun hmem => hne (List.mem_cons_of_mem _ hmem)
    have hfirst : ∀ p ∈ payloadAt user (x :: run) (y :: next), _ :=
      fun p hp => mem_payloadAt hx hy hp
    rw [payloads]
    constructor
    · intro p hp
      rcases List.mem_append.mp hp with hp | hp
      · rw [(hfirst p hp).1]
      · have hlater := hlower p hp
        omega
    · refine List.pairwise_append.mpr ⟨?_, hpairs, ?_⟩
      · rw [payloadAt]
        split
        · exact List.pairwise_singleton _ _
        · exact List.Pairwise.nil
      · intro p hp q hq
        have hend := (hfirst p hp).2
        have hlater := hlower q hq
        unfold Before
        omega

/-- **The durations add up**, while connected. -/
theorem sum_payloads : ∀ (rs : List (List Observation)) {x : Observation}
    {run : List Observation}, InOrder ((x :: run) :: rs) → [] ∉ rs →
      (∀ z ∈ rs.flatten, z.isConnected = true) → Short ((x :: run) :: rs) →
        ∃ y, (((x :: run) :: rs).getLast?.bind List.head?) = some y ∧
          totalDuration (payloads user ((x :: run) :: rs)) =
            y.data.timestamp - x.data.timestamp
  | [], x, _, _, _, _, _ => ⟨x, rfl, (Int.sub_self _).symm⟩
  | [] :: rs, _, _, _, hne, _, _ => absurd List.mem_cons_self hne
  | (y :: next) :: rs, x, run, h, hne, hconnected, hshort => by
    obtain ⟨hcap, hshort⟩ := List.isChain_cons_cons.mp hshort
    have hcap : y.data.timestamp - x.data.timestamp ≤ 2147483647 := hcap x rfl y rfl
    have hle : x.data.timestamp ≤ y.data.timestamp := by
      have hsorted := h.2
      rw [List.flatten_cons, List.cons_append] at hsorted
      exact (List.pairwise_cons.mp hsorted).1 y (by simp)
    have hy : y.isConnected = true := hconnected y (by simp)
    have hrest : ∀ w ∈ rs.flatten, w.isConnected = true := by
      intro w hw
      refine hconnected w ?_
      rw [List.flatten_cons]
      exact List.mem_append_right _ hw
    obtain ⟨z, hz, hsum⟩ := sum_payloads rs h.tail
      (fun hmem => hne (List.mem_cons_of_mem _ hmem)) hrest hshort
    refine ⟨z, hz, ?_⟩
    rw [payloads, payloadAt]
    by_cases hlt : x.data.timestamp < y.data.timestamp
    · rw [if_pos ⟨hy, hlt⟩, List.singleton_append, totalDuration, hsum]
      show toInt32 (y.data.timestamp - x.data.timestamp) + _ = _
      unfold toInt32
      omega
    · rw [if_neg fun hboth => hlt hboth.2, List.nil_append, hsum]
      omega

/-! ## The timeline -/

/-- **The coordinator tiles the timeline.**  Of samples in the order of their times, and for any
    pattern of the connection, what is sent is what the runs say, in order and without overlap.  The
    open run begins with its first sample; while connected, and with no run too long for an `int`,
    the durations add up to the time from the first sample to there. -/
theorem tiles (hsorted : xs.Pairwise fun x y => x.data.timestamp ≤ y.data.timestamp) :
    (after xs).activities = payloads (firstUser xs) (runs xs) ∧
    (after xs).activities.Pairwise Before ∧
    ∀ x y, (admitted xs).head? = some x → (runs xs).getLast?.bind List.head? = some y →
      (after xs).currentActivityStart = timeOf y.data ∧
      ((∀ z ∈ xs, z.isConnected = true) → Short (runs xs) →
        totalDuration (after xs).activities = y.data.timestamp - x.data.timestamp) := by
  have hinOrder := inOrder_runs hsorted
  have hne : [] ∉ runs xs := List.nil_notMem_splitBy _ _
  rcases told_start xs {} rfl rfl hsorted with ⟨hnone, hactivities⟩ | htold
  · -- nothing that counts has been seen
    have hruns : runs xs = [] := by
      unfold runs
      rw [hnone]
      rfl
    have hactivities : (after xs).activities = [] := hactivities
    rw [hactivities, hruns, hnone]
    refine ⟨rfl, List.Pairwise.nil, ?_⟩
    intro x y hx
    cases hx
  · have hactivities : (after xs).activities = payloads (firstUser xs) (runs xs) :=
      htold.activities
    obtain ⟨opening, hopening, -, htracking⟩ := htold.tracking
    have hflatten : (runs xs).flatten = admitted xs := List.flatten_splitBy _ _
    rw [hactivities]
    cases hruns : runs xs with
    | nil =>
      rw [hruns] at hopening
      cases hopening
    | cons run rs =>
      rw [hruns] at hinOrder hne hopening hflatten
      cases run with
      | nil => exact absurd List.mem_cons_self hne
      | cons z run =>
        have hrs : [] ∉ rs := fun hmem => hne (List.mem_cons_of_mem _ hmem)
        refine ⟨rfl, (ordered_payloads rs hinOrder hrs).2, ?_⟩
        intro x y hx hy
        rw [← hflatten] at hx
        obtain rfl : z = x := Option.some.inj hx
        obtain rfl : opening = y := Option.some.inj (hopening.symm.trans hy)
        refine ⟨htracking.start, fun hconnected hshort => ?_⟩
        have hall : ∀ w ∈ rs.flatten, w.isConnected = true := by
          intro w hw
          have hmem : w ∈ admitted xs := by
            rw [← hflatten, List.flatten_cons]
            exact List.mem_append_right _ hw
          exact hconnected w (List.mem_filter.mp hmem).1
        obtain ⟨w, hw, hsum⟩ := sum_payloads rs hinOrder hrs hall hshort
        obtain rfl : opening = w := Option.some.inj (hopening.symm.trans hw)
        exact hsum

/-! ## A morning, and times that do not fit -/

/-- A sample of a window. -/
def see (timestamp : Int) (activeWindow : String) (isConnected : Bool) : Observation where
  data := { timestamp, activeWindow, processName := activeWindow, username := "alice" }
  isConnected

/-- From noon of 1 March 2024: the mail, a report while the connection is down, the mail again. -/
def morning : List Observation :=
  [see 1709294400 "Inbox" true, see 1709294420 "Report" true, see 1709294450 "Report" false,
    see 1709294460 "Inbox" false, see 1709294500 "Browser" true]

/-- The report is left out, and the intervals around it stay where they are. -/
theorem tiles_morning : (after morning).activities = payloads "alice" (runs morning) ∧
    (after morning).activities.map (fun p => (p.activeWindow, p.duration)) =
      [("Inbox", 20), ("Inbox", 40)] := by
  have hsorted : morning.Pairwise fun x y => x.data.timestamp ≤ y.data.timestamp := by decide
  have hsent := (tiles hsorted).1
  exact ⟨hsent, by rw [hsent]; decide +kernel⟩

/-- A run that begins with the calendar is not sent, and one of 4 000 000 000 seconds is sent as
    2 147 483 647. -/
theorem not_tiles_ends :
    (after [see (-62135596800) "Inbox" true, see (-62135596740) "Report" true]).activities = [] ∧
    (after [see 0 "Inbox" true, see 4000000000 "Report" true]).activities.map (·.duration) =
      [2147483647] := by
  decide +kernel

end Service.ActivityTiling
