import Amatl.Server.Access

/-! The rate limit over whole sequences of requests: how many of one address are admitted,
and which are refused although the address has waited. -/

namespace Amatl

open Net

structure RateEvent where
  time : Nat
  ip : IpAddr
  admitted : Bool
  opened : Bool
  deriving DecidableEq

def RateLimiter.window (limiter : RateLimiter) (ip : IpAddr) : Option RateWindow :=
  limiter.windows.lookup ip

def rateEvent (limit : UInt32) (limiter : RateLimiter) (now : Nat) (request : Request) :
    RateEvent where
  time := now
  ip := request.clientIp
  admitted := (withinRateLimit request limit now limiter).1
  opened := ((limiter.cleaned now).window request.clientIp).isNone

def rateAfter (limit : UInt32) (limiter : RateLimiter) (requests : List (Nat × Request)) :
    RateLimiter :=
  requests.foldl (fun limiter entry => (withinRateLimit entry.2 limit entry.1 limiter).2) limiter

def rateRun (limit : UInt32) (limiter : RateLimiter) : List (Nat × Request) → List RateEvent
  | [] => []
  | (now, request) :: requests =>
    rateEvent limit limiter now request ::
      rateRun limit (withinRateLimit request limit now limiter).2 requests

def RateLimiter.start (now : Nat) : RateLimiter := ⟨[], now⟩

def admittedCount (ip : IpAddr) (during : Nat → Bool) (events : List RateEvent) : Nat :=
  events.countP (fun event => event.ip == ip && event.admitted && during event.time)

/-! One request. -/

def RateLimiter.Distinct (limiter : RateLimiter) : Prop := (limiter.windows.map Prod.fst).Nodup

theorem lookup_filter {entries : List (IpAddr × RateWindow)} (distinct : (entries.map Prod.fst).Nodup)
    (p : RateWindow → Bool) (ip : IpAddr) :
    (entries.filter (fun entry => p entry.2)).lookup ip = (entries.lookup ip).filter p := by
  induction entries with
  | nil => rfl
  | cons entry entries ih =>
    obtain ⟨key, window⟩ := entry
    obtain ⟨absent, rest⟩ := List.nodup_cons.mp distinct
    have htail := ih rest
    by_cases same : ip = key
    · subst same
      have missing : entries.lookup ip = none := by
        rw [List.lookup_eq_none_iff]
        intro other mem
        have different : other.1 ≠ ip := fun equal => absent (List.mem_map.mpr ⟨other, mem, equal⟩)
        simpa using different.symm
      rw [missing] at htail
      by_cases kept : p window = true
      · simp [kept, Option.filter]
      · simp [kept, Option.filter, htail]
    · have hkey : (ip == key) = false := by simpa using same
      by_cases kept : p window = true
      · simp [kept, List.lookup_cons, hkey, htail]
      · simp [kept, List.lookup_cons, hkey, htail]

theorem lookup_filter_key (entries : List (IpAddr × RateWindow)) {ip other : IpAddr}
    (different : other ≠ ip) :
    (entries.filter (fun entry => entry.1 != ip)).lookup other = entries.lookup other := by
  induction entries with
  | nil => rfl
  | cons entry entries ih =>
    obtain ⟨key, window⟩ := entry
    by_cases same : key = ip
    · subst same
      have hkey : (other == key) = false := by simpa using different
      simp [List.lookup_cons, hkey, ih]
    · simp [same, List.lookup_cons, ih]

section Step

variable {limit : UInt32} {limiter : RateLimiter} {now : Nat} {request : Request} {ip : IpAddr}

theorem cleaned_window (distinct : limiter.Distinct) (now : Nat) (ip : IpAddr) :
    (limiter.cleaned now).window ip =
      if minute ≤ now - limiter.lastCleanup then
        (limiter.window ip).filter (fun window => decide (now - window.started < minute))
      else limiter.window ip := by
  unfold RateLimiter.cleaned
  by_cases due : minute ≤ now - limiter.lastCleanup
  · rw [if_pos due, if_pos due]
    exact lookup_filter distinct (fun window => decide (now - window.started < minute)) ip
  · rw [if_neg due, if_neg due]

theorem cleaned_distinct (distinct : limiter.Distinct) (now : Nat) :
    (limiter.cleaned now).Distinct := by
  unfold RateLimiter.cleaned
  by_cases due : minute ≤ now - limiter.lastCleanup
  · rw [if_pos due]
    exact distinct.sublist (List.filter_sublist.map Prod.fst)
  · rw [if_neg due]
    exact distinct

def RateLimiter.current (limiter : RateLimiter) (now : Nat) (ip : IpAddr) : RateWindow :=
  ((limiter.cleaned now).window ip).getD ⟨now, 0⟩

def RateWindow.next (window : RateWindow) (limit : UInt32) : RateWindow :=
  if limit.toNat ≤ window.count then window else { window with count := window.count + 1 }

theorem withinRateLimit_eq (request : Request) (limit : UInt32) (now : Nat)
    (limiter : RateLimiter) :
    withinRateLimit request limit now limiter =
      (!decide (limit.toNat ≤ (limiter.current now request.clientIp).count),
        { limiter.cleaned now with
          windows := (request.clientIp, (limiter.current now request.clientIp).next limit) ::
            (limiter.cleaned now).windows.filter (fun entry => entry.1 != request.clientIp) }) := by
  unfold withinRateLimit RateWindow.next RateLimiter.current RateLimiter.window
  dsimp only
  split
  · rename_i full
    simp [full]
  · rename_i room
    simp [room]

theorem withinRateLimit_distinct (distinct : limiter.Distinct) (request : Request) (limit : UInt32)
    (now : Nat) : (withinRateLimit request limit now limiter).2.Distinct := by
  rw [withinRateLimit_eq]
  have kept := (cleaned_distinct distinct now).sublist
    (List.filter_sublist (p := fun entry => entry.1 != request.clientIp) |>.map Prod.fst)
  refine List.nodup_cons.mpr ⟨?_, kept⟩
  simp

theorem window_same (request : Request) (limit : UInt32) (now : Nat) (limiter : RateLimiter) :
    (withinRateLimit request limit now limiter).2.window request.clientIp =
      some ((limiter.current now request.clientIp).next limit) := by
  rw [withinRateLimit_eq]
  simp [RateLimiter.window]

theorem window_other (different : ip ≠ request.clientIp) (limit : UInt32) (now : Nat)
    (limiter : RateLimiter) :
    (withinRateLimit request limit now limiter).2.window ip = (limiter.cleaned now).window ip := by
  rw [withinRateLimit_eq]
  have hkey : (ip == request.clientIp) = false := by simpa using different
  simp only [RateLimiter.window, List.lookup_cons, hkey]
  exact lookup_filter_key _ different

theorem cleaned_cases (distinct : limiter.Distinct) (now : Nat) (ip : IpAddr) :
    (limiter.cleaned now).window ip = limiter.window ip ∨
      ((limiter.cleaned now).window ip = none ∧
        ∀ window, limiter.window ip = some window → window.started + minute ≤ now) := by
  rw [cleaned_window distinct]
  by_cases due : minute ≤ now - limiter.lastCleanup
  · rw [if_pos due]
    cases hwindow : limiter.window ip with
    | none => exact Or.inl rfl
    | some window =>
      by_cases young : now - window.started < minute
      · exact Or.inl (by simp [Option.filter, young])
      · refine Or.inr ⟨by simp [Option.filter, young], ?_⟩
        intro other same
        cases same
        have positive : 0 < minute := by decide
        omega
  · rw [if_neg due]
    exact Or.inl rfl

end Step

/-! Sequences of requests. -/

section Run

variable {limit : UInt32} {limiter : RateLimiter} {ip : IpAddr}

theorem rateRun_append (limiter : RateLimiter) (a b : List (Nat × Request)) :
    rateRun limit limiter (a ++ b) =
      rateRun limit limiter a ++ rateRun limit (rateAfter limit limiter a) b := by
  induction a generalizing limiter with
  | nil => rfl
  | cons entry a ih =>
    obtain ⟨now, request⟩ := entry
    simp only [List.cons_append, rateRun, ih]
    rfl

theorem rateRun_split {requests : List (Nat × Request)} {a b : List RateEvent}
    (h : rateRun limit limiter requests = a ++ b) :
    ∃ first rest, requests = first ++ rest ∧ rateRun limit limiter first = a ∧
      rateRun limit (rateAfter limit limiter first) rest = b := by
  induction a generalizing limiter requests with
  | nil => exact ⟨[], requests, rfl, rfl, h⟩
  | cons event a ih =>
    cases requests with
    | nil => cases h
    | cons entry requests =>
      obtain ⟨now, request⟩ := entry
      obtain ⟨hevent, htail⟩ := List.cons.inj h
      obtain ⟨first, rest, rfl, hfirst, hrest⟩ := ih htail
      exact ⟨(now, request) :: first, rest, rfl, by rw [rateRun, hevent, hfirst], hrest⟩

theorem rateAfter_distinct (distinct : limiter.Distinct) (requests : List (Nat × Request)) :
    (rateAfter limit limiter requests).Distinct := by
  induction requests generalizing limiter with
  | nil => exact distinct
  | cons entry requests ih => exact ih (withinRateLimit_distinct distinct entry.2 limit entry.1)

theorem rateRun_times (limiter : RateLimiter) (requests : List (Nat × Request)) :
    (rateRun limit limiter requests).map (·.time) = requests.map Prod.fst := by
  induction requests generalizing limiter with
  | nil => rfl
  | cons entry requests ih =>
    obtain ⟨now, request⟩ := entry
    simp only [rateRun, List.map_cons, ih]
    rfl

def room (limit : UInt32) (limiter : RateLimiter) (ip : IpAddr) : Nat :=
  match limiter.window ip with
  | none => 0
  | some window => limit.toNat - window.count

theorem room_le (limit : UInt32) (limiter : RateLimiter) (ip : IpAddr) :
    room limit limiter ip ≤ limit.toNat := by
  unfold room
  split
  · exact Nat.zero_le _
  · exact Nat.sub_le _ _

theorem room_of_eq {limiter' : RateLimiter} (h : limiter'.window ip = limiter.window ip) :
    room limit limiter' ip = room limit limiter ip := by
  simp only [room, h]

theorem room_of_none (h : limiter.window ip = none) : room limit limiter ip = 0 := by
  simp only [room, h]

abbrev always : Nat → Bool := fun _ => true

theorem admittedCount_cons (during : Nat → Bool) (event : RateEvent) (events : List RateEvent) :
    admittedCount ip during (event :: events) = admittedCount ip during events +
      if event.ip = ip ∧ event.admitted = true ∧ during event.time = true then 1 else 0 := by
  unfold admittedCount
  rw [List.countP_cons]
  simp only [Bool.and_eq_true, beq_iff_eq, and_assoc]

theorem admittedCount_append (during : Nat → Bool) (a b : List RateEvent) :
    admittedCount ip during (a ++ b) = admittedCount ip during a + admittedCount ip during b :=
  List.countP_append

/-- Where no window of the address starts, no more are admitted than its window has room for. -/
theorem admitted_le_room (distinct : limiter.Distinct) {requests : List (Nat × Request)}
    (closed : ∀ event ∈ rateRun limit limiter requests, event.ip = ip → event.opened = false) :
    admittedCount ip always (rateRun limit limiter requests) ≤ room limit limiter ip := by
  induction requests generalizing limiter with
  | nil => exact Nat.zero_le _
  | cons entry requests ih =>
    obtain ⟨now, request⟩ := entry
    have later := ih (withinRateLimit_distinct distinct request limit now)
      (fun event mem => closed event (List.mem_cons_of_mem _ mem))
    rw [rateRun, admittedCount_cons]
    by_cases same : request.clientIp = ip
    · subst same
      have unopened := closed _ List.mem_cons_self rfl
      have present : (limiter.cleaned now).window request.clientIp ≠ none := by
        intro absent
        simp [rateEvent, absent] at unopened
      have kept := (cleaned_cases distinct now request.clientIp).resolve_right
        (fun gone => present gone.1)
      obtain ⟨window, hwindow⟩ := Option.ne_none_iff_exists'.mp present
      have current : limiter.current now request.clientIp = window := by
        simp [RateLimiter.current, hwindow]
      have here : room limit limiter request.clientIp = limit.toNat - window.count := by
        rw [room, ← kept, hwindow]
      have next : room limit (withinRateLimit request limit now limiter).2 request.clientIp =
          limit.toNat - (window.next limit).count := by
        rw [room, window_same, current]
      have admitted : (rateEvent limit limiter now request).admitted =
          !decide (limit.toNat ≤ window.count) := by
        simp only [rateEvent, withinRateLimit_eq, current]
      rw [next] at later
      rw [here, admitted]
      by_cases full : limit.toNat ≤ window.count
      · simp only [RateWindow.next, if_pos full] at later
        simp only [full, decide_true, Bool.not_true]
        simpa using later
      · simp only [RateWindow.next, if_neg full] at later
        split <;> omega
    · have uncounted : ¬ ((rateEvent limit limiter now request).ip = ip ∧
          (rateEvent limit limiter now request).admitted = true ∧
          always (rateEvent limit limiter now request).time = true) :=
        fun counted => same counted.1
      rw [if_neg uncounted]
      have next : (withinRateLimit request limit now limiter).2.window ip =
          (limiter.cleaned now).window ip := window_other (fun equal => same equal.symm) _ _ _
      rcases cleaned_cases distinct now ip with kept | ⟨gone, -⟩
      · rw [room_of_eq (next.trans kept)] at later
        omega
      · rw [room_of_none (next.trans gone)] at later
        omega

theorem opened_after (distinct : limiter.Distinct) {requests : List (Nat × Request)}
    (sorted : (requests.map Prod.fst).Pairwise (· ≤ ·)) {window : RateWindow}
    (hwindow : limiter.window ip = some window) :
    ∀ event ∈ rateRun limit limiter requests, event.ip = ip → event.opened = true →
      window.started + minute ≤ event.time := by
  induction requests generalizing limiter window with
  | nil => simp [rateRun]
  | cons entry requests ih =>
    obtain ⟨now, request⟩ := entry
    obtain ⟨first, rest⟩ := List.pairwise_cons.mp sorted
    have times : ∀ event ∈ rateRun limit (withinRateLimit request limit now limiter).2 requests,
        now ≤ event.time := by
      intro event mem
      have time := List.mem_map_of_mem (f := (·.time)) mem
      rw [rateRun_times] at time
      exact first _ time
    have later {next : RateWindow} (same : next.started = window.started)
        (hnext : (withinRateLimit request limit now limiter).2.window ip = some next) :=
      same ▸ ih (withinRateLimit_distinct distinct request limit now) rest hnext
    intro event mem hip opened
    rcases cleaned_cases distinct now ip with kept | ⟨-, old⟩
    · rw [hwindow] at kept
      rcases List.mem_cons.mp mem with rfl | tail
      · -- The window is still there, so this request does not start one.
        have absent : (limiter.cleaned now).window ip = none := by
          rw [← hip]
          simpa [rateEvent] using opened
        rw [absent] at kept
        cases kept
      · by_cases same : request.clientIp = ip
        · subst same
          have current : limiter.current now request.clientIp = window := by
            simp [RateLimiter.current, kept]
          have started : (window.next limit).started = window.started := by
            unfold RateWindow.next
            split <;> rfl
          refine later started ?_ event tail hip opened
          rw [window_same, current]
        · have next : (withinRateLimit request limit now limiter).2.window ip =
              (limiter.cleaned now).window ip := window_other (fun equal => same equal.symm) _ _ _
          exact later rfl (next.trans kept) event tail hip opened
    · have discarded := old window hwindow
      rcases List.mem_cons.mp mem with rfl | tail
      · exact discarded
      · exact discarded.trans (times event tail)

/-- From a window's start to the next one of the address, the limit holds. -/
theorem admitted_since_opened (distinct : limiter.Distinct) {now : Nat} {request : Request}
    {requests : List (Nat × Request)} (hip : request.clientIp = ip)
    (opened : (rateEvent limit limiter now request).opened = true)
    (closed : ∀ event ∈ rateRun limit (withinRateLimit request limit now limiter).2 requests,
      event.ip = ip → event.opened = false) :
    admittedCount ip always (rateRun limit limiter ((now, request) :: requests)) ≤
      limit.toNat := by
  subst hip
  have absent : (limiter.cleaned now).window request.clientIp = none := by
    simpa [rateEvent] using opened
  have current : limiter.current now request.clientIp = ⟨now, 0⟩ := by
    simp [RateLimiter.current, absent]
  have later := admitted_le_room (withinRateLimit_distinct distinct request limit now) closed
  have next : room limit (withinRateLimit request limit now limiter).2 request.clientIp =
      limit.toNat - ((⟨now, 0⟩ : RateWindow).next limit).count := by
    rw [room, window_same, current]
  have admitted : (rateEvent limit limiter now request).admitted =
      !decide (limit.toNat ≤ 0) := by
    simp only [rateEvent, withinRateLimit_eq, current]
  rw [rateRun, admittedCount_cons, admitted]
  rw [next] at later
  by_cases full : limit.toNat ≤ 0
  · simp only [RateWindow.next, if_pos full] at later
    simp only [full, decide_true, Bool.not_true]
    simpa using later
  · simp only [RateWindow.next, if_neg full] at later
    split <;> omega

theorem rateRun_cons_eq {requests : List (Nat × Request)} {event : RateEvent}
    {events : List RateEvent} (h : rateRun limit limiter requests = event :: events) :
    ∃ now request rest, requests = (now, request) :: rest ∧
      event = rateEvent limit limiter now request ∧
      events = rateRun limit (withinRateLimit request limit now limiter).2 rest := by
  cases requests with
  | nil => cases h
  | cons entry rest =>
    obtain ⟨now, request⟩ := entry
    obtain ⟨hevent, hevents⟩ := List.cons.inj h
    exact ⟨now, request, rest, rfl, hevent.symm, hevents.symm⟩

/-- Within a minute at most one window starts, so at most two admit requests. -/
theorem admitted_in_minute (distinct : limiter.Distinct) {requests : List (Nat × Request)}
    (sorted : (requests.map Prod.fst).Pairwise (· ≤ ·)) {t : Nat}
    (within : ∀ entry ∈ requests, t ≤ entry.1 ∧ entry.1 < t + minute) :
    admittedCount ip always (rateRun limit limiter requests) ≤ 2 * limit.toNat := by
  cases found : (rateRun limit limiter requests).find? (fun event => event.ip == ip && event.opened) with
  | none =>
    have closed : ∀ event ∈ rateRun limit limiter requests, event.ip = ip →
        event.opened = false := by
      intro event mem hip
      have unopened := List.find?_eq_none.mp found event mem
      simpa [hip] using unopened
    have bound := admitted_le_room distinct closed
    have limited := room_le limit limiter ip
    omega
  | some event =>
    obtain ⟨hopened, before, after, hsplit, hclosed⟩ := List.find?_eq_some_iff_append.mp found
    rw [Bool.and_eq_true, beq_iff_eq] at hopened
    obtain ⟨first, rest, rfl, hfirst, hrest⟩ := rateRun_split hsplit
    obtain ⟨now, request, later, rfl, rfl, rfl⟩ := rateRun_cons_eq hrest
    have distinct' : (rateAfter limit limiter first).Distinct := rateAfter_distinct distinct first
    have earlier : admittedCount ip always before ≤ limit.toNat := by
      rw [← hfirst]
      refine (admitted_le_room distinct (fun event mem hip => ?_)).trans (room_le limit limiter ip)
      have unopened := hclosed event (hfirst ▸ mem)
      simpa [hip] using unopened
    have htimes : (((now, request) :: later).map Prod.fst).Pairwise (· ≤ ·) := by
      rw [List.map_append] at sorted
      exact (List.pairwise_append.mp sorted).2.1
    have closed : ∀ event ∈ rateRun limit
        (withinRateLimit request limit now (rateAfter limit limiter first)).2 later,
        event.ip = ip → event.opened = false := by
      intro event mem hip
      by_contra reopened
      have hwindow := window_same request limit now (rateAfter limit limiter first)
      have absent : ((rateAfter limit limiter first).cleaned now).window request.clientIp = none := by
        simpa [rateEvent] using hopened.2
      have started : (((rateAfter limit limiter first).current now request.clientIp).next
          limit).started = now := by
        rw [RateLimiter.current, absent]
        unfold RateWindow.next
        split <;> rfl
      have apart := opened_after (withinRateLimit_distinct distinct' request limit now)
        (List.pairwise_cons.mp htimes).2 hwindow event mem (hip.trans hopened.1.symm)
        (by simpa using reopened)
      have time := List.mem_map_of_mem (f := (·.time)) mem
      rw [rateRun_times] at time
      obtain ⟨entry, hentry, equal⟩ := List.mem_map.mp time
      have upper := (within entry (by simp [hentry])).2
      have lower := (within (now, request) (by simp)).1
      rw [started] at apart
      omega
    have since := admitted_since_opened distinct' hopened.1 hopened.2 closed
    rw [rateRun] at since
    rw [hsplit, admittedCount_append]
    omega

theorem split_at_time {requests : List (Nat × Request)}
    (sorted : (requests.map Prod.fst).Pairwise (· ≤ ·)) (t : Nat) :
    ∃ before since, requests = before ++ since ∧ (∀ entry ∈ before, entry.1 < t) ∧
      ∀ entry ∈ since, t ≤ entry.1 := by
  induction requests with
  | nil => exact ⟨[], [], rfl, by simp, by simp⟩
  | cons entry requests ih =>
    obtain ⟨first, rest⟩ := List.pairwise_cons.mp sorted
    by_cases early : entry.1 < t
    · obtain ⟨before, since, rfl, hbefore, hsince⟩ := ih rest
      refine ⟨entry :: before, since, rfl, ?_, hsince⟩
      intro other mem
      rcases List.mem_cons.mp mem with rfl | tail
      · exact early
      · exact hbefore other tail
    · refine ⟨[], entry :: requests, rfl, by simp, ?_⟩
      intro other mem
      rcases List.mem_cons.mp mem with rfl | tail
      · omega
      · have later := first _ (List.mem_map_of_mem tail)
        omega

theorem rateRun_mem_time {requests : List (Nat × Request)} {event : RateEvent}
    (mem : event ∈ rateRun limit limiter requests) : ∃ entry ∈ requests, entry.1 = event.time := by
  have time := List.mem_map_of_mem (f := (·.time)) mem
  rw [rateRun_times] at time
  exact List.mem_map.mp time

theorem admittedCount_eq_zero {during : Nat → Bool} {events : List RateEvent}
    (outside : ∀ event ∈ events, during event.time = false) : admittedCount ip during events = 0 := by
  refine List.countP_eq_zero.mpr (fun event mem => ?_)
  simp [outside event mem]

theorem admittedCount_le_always (ip : IpAddr) (during : Nat → Bool) (events : List RateEvent) :
    admittedCount ip during events ≤ admittedCount ip always events := by
  refine List.countP_mono_left (fun event _ counted => ?_)
  rw [Bool.and_eq_true] at counted ⊢
  exact ⟨counted.1, rfl⟩

end Run

theorem start_distinct (now : Nat) : (RateLimiter.start now).Distinct := List.nodup_nil

/-- In every half-open minute at most twice the limit is admitted from one address, and from
one start of its windows to the next at most the limit. -/
theorem rateLimit_ceiling (limit : UInt32) (started : Nat) (requests : List (Nat × Request))
    (sorted : (requests.map Prod.fst).Pairwise (· ≤ ·)) (ip : IpAddr) :
    let events := rateRun limit (.start started) requests
    (∀ t, admittedCount ip (fun time => t ≤ time && time < t + minute) events ≤
      2 * limit.toNat) ∧
    ∀ before first between after, events = before ++ first :: (between ++ after) →
      first.ip = ip → first.opened = true →
      (∀ event ∈ between, event.ip = ip → event.opened = false) →
      admittedCount ip always (first :: between) ≤ limit.toNat := by
  intro events
  constructor
  · intro t
    obtain ⟨before, since, rfl, hbefore, hsince⟩ := split_at_time sorted t
    rw [List.map_append] at sorted
    have sortedSince := (List.pairwise_append.mp sorted).2.1
    obtain ⟨during, after, rfl, hduring, hafter⟩ := split_at_time sortedSince (t + minute)
    rw [List.map_append] at sortedSince
    have sortedDuring := (List.pairwise_append.mp sortedSince).1
    have parts : events = rateRun limit (.start started) before ++
        (rateRun limit (rateAfter limit (.start started) before) during ++
          rateRun limit (rateAfter limit (rateAfter limit (.start started) before) during) after) := by
      rw [← rateRun_append, ← rateRun_append]
    have early : admittedCount ip (fun time => t ≤ time && time < t + minute)
        (rateRun limit (.start started) before) = 0 := by
      refine admittedCount_eq_zero (fun event mem => ?_)
      obtain ⟨entry, hentry, equal⟩ := rateRun_mem_time mem
      have bound := hbefore entry hentry
      simp only [Bool.and_eq_false_iff, decide_eq_false_iff_not]
      omega
    have late : admittedCount ip (fun time => t ≤ time && time < t + minute)
        (rateRun limit (rateAfter limit (rateAfter limit (.start started) before) during)
          after) = 0 := by
      refine admittedCount_eq_zero (fun event mem => ?_)
      obtain ⟨entry, hentry, equal⟩ := rateRun_mem_time mem
      have bound := hafter entry hentry
      simp only [Bool.and_eq_false_iff, decide_eq_false_iff_not]
      omega
    have middle : admittedCount ip always
        (rateRun limit (rateAfter limit (.start started) before) during) ≤ 2 * limit.toNat :=
      admitted_in_minute (rateAfter_distinct (start_distinct started) before) sortedDuring
      (fun entry mem => ⟨hsince entry (List.mem_append_left _ mem), hduring entry mem⟩)
    have counted := admittedCount_le_always ip (fun time => t ≤ time && time < t + minute)
      (rateRun limit (rateAfter limit (.start started) before) during)
    rw [parts, admittedCount_append, admittedCount_append, early, late]
    omega
  · intro before first between after hsplit hip opened closed
    obtain ⟨earlier, rest, rfl, -, hrest⟩ := rateRun_split hsplit
    obtain ⟨now, request, later, rfl, rfl, htail⟩ := rateRun_cons_eq hrest
    obtain ⟨middle, last, rfl, hmiddle, -⟩ := rateRun_split htail.symm
    rw [← hmiddle] at closed ⊢
    exact admitted_since_opened (rateAfter_distinct (start_distinct started) earlier) hip opened
      closed

def pollRequest (peer : IpAddr) : Request where
  method := .get
  path := "/"
  headers := []
  peer := some peer

def client (d : UInt8) : IpAddr := .v4 ⟨192, 0, 2, d⟩

theorem threePolls_ceiling :
    let requests := [(1, pollRequest (client 1)), (2, pollRequest (client 1)),
      (minute + 1, pollRequest (client 1))]
    (rateRun 1 (.start 0) requests).map (·.admitted) = [true, false, true] ∧
      admittedCount (client 1) (fun time => 2 ≤ time && time < 2 + minute)
        (rateRun 1 (.start 0) requests) ≤ 2 := by
  intro requests
  exact ⟨by decide +kernel, (rateLimit_ceiling 1 0 requests (by decide) (client 1)).1 2⟩

/-! Refusals. -/

/-- The window of the address is full and a minute old, and no clean-up is due that would
discard it. -/
def overdue (limit : UInt32) (limiter : RateLimiter) (now : Nat) (ip : IpAddr) : Bool :=
  0 < limit.toNat && now - limiter.lastCleanup < minute &&
    (limiter.window ip).any (fun window =>
      limit.toNat ≤ window.count && minute ≤ now - window.started)

/-- What the window of an address knows of its admitted requests. -/
structure Tracked (limit : UInt32) (ip : IpAddr) (events : List RateEvent) (limiter : RateLimiter)
    (last : Nat) : Prop where
  distinct : limiter.Distinct
  times : ∀ event ∈ events, event.time ≤ last
  started : ∀ window, limiter.window ip = some window → window.started ≤ last
  limited : ∀ window, limiter.window ip = some window → window.count ≤ limit.toNat
  covers : ∀ window, limiter.window ip = some window →
    window.count ≤ admittedCount ip (fun time => window.started ≤ time) events
  exceeds : ∀ window, limiter.window ip = some window → 0 < limit.toNat →
    admittedCount ip (fun time => window.started < time) events < window.count

section Tracked

variable {limit : UInt32} {limiter : RateLimiter} {ip : IpAddr} {events : List RateEvent}
  {last now : Nat} {request : Request}

theorem admittedCount_concat (during : Nat → Bool) (events : List RateEvent) (event : RateEvent) :
    admittedCount ip during (events ++ [event]) = admittedCount ip during events +
      if event.ip = ip ∧ event.admitted = true ∧ during event.time = true then 1 else 0 := by
  rw [admittedCount_append, admittedCount_cons]
  simp [admittedCount]

theorem Tracked.other (h : Tracked limit ip events limiter last) (le : last ≤ now)
    (different : request.clientIp ≠ ip) :
    Tracked limit ip (events ++ [rateEvent limit limiter now request])
      (withinRateLimit request limit now limiter).2 now := by
  have same (during : Nat → Bool) :
      admittedCount ip during (events ++ [rateEvent limit limiter now request]) =
        admittedCount ip during events := by
    rw [admittedCount_concat, if_neg (fun counted => different counted.1), Nat.add_zero]
  have hwindow : ∀ window, (withinRateLimit request limit now limiter).2.window ip = some window →
      limiter.window ip = some window := by
    intro window hnext
    rw [window_other (fun equal => different equal.symm)] at hnext
    rcases cleaned_cases h.distinct now ip with kept | ⟨gone, -⟩
    · exact kept.symm.trans hnext
    · rw [gone] at hnext
      cases hnext
  exact
    { distinct := withinRateLimit_distinct h.distinct request limit now
      times := by
        intro event mem
        rcases List.mem_append.mp mem with before | final
        · exact (h.times event before).trans le
        · rw [List.mem_singleton.mp final]
          exact le_rfl
      started := fun window hnext => (h.started window (hwindow window hnext)).trans le
      limited := fun window hnext => h.limited window (hwindow window hnext)
      covers := by
        intro window hnext
        rw [same]
        exact h.covers window (hwindow window hnext)
      exceeds := by
        intro window hnext positive
        rw [same]
        exact h.exceeds window (hwindow window hnext) positive }

theorem current_cases (distinct : limiter.Distinct) (now : Nat) (ip : IpAddr) :
    limiter.window ip = some (limiter.current now ip) ∧
        (limiter.cleaned now).window ip = limiter.window ip ∨
      limiter.current now ip = ⟨now, 0⟩ := by
  cases hcleaned : (limiter.cleaned now).window ip with
  | none => exact Or.inr (by simp [RateLimiter.current, hcleaned])
  | some window =>
    rcases cleaned_cases distinct now ip with kept | ⟨gone, -⟩
    · refine Or.inl ⟨?_, hcleaned ▸ kept⟩
      rw [← kept, hcleaned]
      simp [RateLimiter.current, hcleaned]
    · rw [gone] at hcleaned
      cases hcleaned

theorem Tracked.same (h : Tracked limit ip events limiter last) (le : last ≤ now)
    (hip : request.clientIp = ip) :
    Tracked limit ip (events ++ [rateEvent limit limiter now request])
      (withinRateLimit request limit now limiter).2 now := by
  subst hip
  have hnext := window_same request limit now limiter
  have admitted : (rateEvent limit limiter now request).admitted =
      !decide (limit.toNat ≤ (limiter.current now request.clientIp).count) := by
    simp only [rateEvent, withinRateLimit_eq]
  have counted (during : Nat → Bool) :
      admittedCount request.clientIp during (events ++ [rateEvent limit limiter now request]) = _ :=
    admittedCount_concat during events _
  have future : admittedCount request.clientIp (fun time => now < time) events = 0 := by
    refine admittedCount_eq_zero (fun event mem => ?_)
    have past := h.times event mem
    simp only [decide_eq_false_iff_not]
    omega
  -- What is known of the window before this request.
  have facts : (limiter.current now request.clientIp).started ≤ now ∧
      (limiter.current now request.clientIp).count ≤ limit.toNat ∧
      (limiter.current now request.clientIp).count ≤ admittedCount request.clientIp
        (fun time => (limiter.current now request.clientIp).started ≤ time) events ∧
      (0 < limit.toNat → admittedCount request.clientIp
          (fun time => (limiter.current now request.clientIp).started < time) events <
            (limiter.current now request.clientIp).count ∨
        limiter.current now request.clientIp = ⟨now, 0⟩) := by
    rcases current_cases h.distinct now request.clientIp with ⟨existing, -⟩ | fresh
    · exact ⟨(h.started _ existing).trans le, h.limited _ existing, h.covers _ existing,
        fun positive => Or.inl (h.exceeds _ existing positive)⟩
    · rw [fresh]
      exact ⟨le_rfl, Nat.zero_le _, Nat.zero_le _, fun _ => Or.inr rfl⟩
  generalize limiter.current now request.clientIp = current at hnext admitted facts
  obtain ⟨started, limited, covers, exceeds⟩ := facts
  have times : ∀ event ∈ events ++ [rateEvent limit limiter now request], event.time ≤ now := by
    intro event mem
    rcases List.mem_append.mp mem with before | final
    · exact (h.times event before).trans le
    · rw [List.mem_singleton.mp final]
      exact le_rfl
  have distinct := withinRateLimit_distinct h.distinct request limit now
  by_cases full : limit.toNat ≤ current.count
  · have refused (during : Nat → Bool) :
        admittedCount request.clientIp during (events ++ [rateEvent limit limiter now request]) =
          admittedCount request.clientIp during events := by
      rw [counted, admitted]
      simp [full]
    have next : current.next limit = current := if_pos full
    rw [next] at hnext
    refine ⟨distinct, times, ?_, ?_, ?_, ?_⟩ <;> intro window hwindow
    · obtain rfl := Option.some.inj (hnext.symm.trans hwindow)
      exact started
    · obtain rfl := Option.some.inj (hnext.symm.trans hwindow)
      exact limited
    · obtain rfl := Option.some.inj (hnext.symm.trans hwindow)
      rw [refused]
      exact covers
    · obtain rfl := Option.some.inj (hnext.symm.trans hwindow)
      intro positive
      rw [refused]
      refine (exceeds positive).resolve_right (fun fresh => ?_)
      have none_left : limit.toNat ≤ 0 := by
        rw [fresh] at full
        exact full
      omega
  · have added (during : Nat → Bool) :
        admittedCount request.clientIp during (events ++ [rateEvent limit limiter now request]) =
          admittedCount request.clientIp during events + if during now = true then 1 else 0 := by
      rw [counted, admitted]
      simp [full, rateEvent]
    have next : current.next limit = { current with count := current.count + 1 } := if_neg full
    rw [next] at hnext
    refine ⟨distinct, times, ?_, ?_, ?_, ?_⟩ <;> intro window hwindow
    · obtain rfl := Option.some.inj (hnext.symm.trans hwindow)
      exact started
    · obtain rfl := Option.some.inj (hnext.symm.trans hwindow)
      dsimp only
      omega
    · obtain rfl := Option.some.inj (hnext.symm.trans hwindow)
      rw [added, if_pos (decide_eq_true started)]
      dsimp only
      omega
    · obtain rfl := Option.some.inj (hnext.symm.trans hwindow)
      intro positive
      rw [added]
      dsimp only
      rcases exceeds positive with fewer | fresh
      · split <;> omega
      · rw [fresh]
        simp [future]

theorem Tracked.mono (h : Tracked limit ip events limiter last) (le : last ≤ now) :
    Tracked limit ip events limiter now where
  distinct := h.distinct
  times := fun event mem => (h.times event mem).trans le
  started := fun window hwindow => (h.started window hwindow).trans le
  limited := h.limited
  covers := h.covers
  exceeds := h.exceeds

theorem tracked_run (limit : UInt32) (started : Nat) {requests : List (Nat × Request)} {last : Nat}
    (sorted : (requests.map Prod.fst).Pairwise (· ≤ ·))
    (bounded : ∀ entry ∈ requests, entry.1 ≤ last) (ip : IpAddr) :
    Tracked limit ip (rateRun limit (.start started) requests)
      (rateAfter limit (.start started) requests) last := by
  induction requests using List.reverseRecOn generalizing last with
  | nil =>
    exact ⟨start_distinct started, by simp [rateRun], by simp [rateAfter, RateLimiter.start,
      RateLimiter.window], by simp [rateAfter, RateLimiter.start, RateLimiter.window],
      by simp [rateAfter, RateLimiter.start, RateLimiter.window],
      by simp [rateAfter, RateLimiter.start, RateLimiter.window]⟩
  | append_singleton requests entry ih =>
    obtain ⟨now, request⟩ := entry
    rw [List.map_append] at sorted
    obtain ⟨before, -, ordered⟩ := List.pairwise_append.mp sorted
    have earlier : Tracked limit ip _ _ now := ih before (fun entry mem =>
      ordered _ (List.mem_map_of_mem mem) now (by simp))
    have run : rateRun limit (.start started) (requests ++ [(now, request)]) =
        rateRun limit (.start started) requests ++
          [rateEvent limit (rateAfter limit (.start started) requests) now request] := by
      rw [rateRun_append]
      rfl
    have after : rateAfter limit (.start started) (requests ++ [(now, request)]) =
        (withinRateLimit request limit now (rateAfter limit (.start started) requests)).2 := by
      simp [rateAfter]
    have le : now ≤ last := bounded (now, request) (by simp)
    rw [run, after]
    refine Tracked.mono ?_ le
    by_cases same : request.clientIp = ip
    · exact earlier.same le_rfl same
    · exact earlier.other le_rfl same

theorem admittedCount_mono {during during' : Nat → Bool}
    (imp : ∀ time, during time = true → during' time = true) (events : List RateEvent) :
    admittedCount ip during events ≤ admittedCount ip during' events := by
  refine List.countP_mono_left (fun event _ counted => ?_)
  rw [Bool.and_eq_true] at counted ⊢
  exact ⟨counted.1, imp event.time counted.2⟩

theorem Tracked.refused_iff (h : Tracked limit request.clientIp events limiter last) (now : Nat) :
    ((withinRateLimit request limit now limiter).1 = false →
      limit.toNat ≤
        admittedCount request.clientIp (fun time => now < time + minute) events) ↔
      overdue limit limiter now request.clientIp = false := by
  have positive : 0 < minute := by decide
  constructor
  · intro justified
    by_contra late
    simp only [overdue, Bool.not_eq_false, Bool.and_eq_true, decide_eq_true_eq,
      Option.any_eq_true] at late
    obtain ⟨⟨hlimit, notDue⟩, window, hwindow, full, old⟩ := late
    have kept : (limiter.cleaned now).window request.clientIp = some window := by
      rw [cleaned_window h.distinct, if_neg (by omega), hwindow]
    have current : limiter.current now request.clientIp = window := by
      simp [RateLimiter.current, kept]
    have refused : (withinRateLimit request limit now limiter).1 = false := by
      simp [withinRateLimit_eq, current, full]
    have enough := justified refused
    have fewer := h.exceeds window hwindow hlimit
    have within := h.limited window hwindow
    have recent : admittedCount request.clientIp (fun time => now < time + minute) events ≤
        admittedCount request.clientIp (fun time => window.started < time) events := by
      refine admittedCount_mono (fun time soon => ?_) events
      simp only [decide_eq_true_eq] at soon ⊢
      omega
    omega
  · intro timely refused
    by_cases hlimit : 0 < limit.toNat
    · have full : limit.toNat ≤ (limiter.current now request.clientIp).count := by
        simpa [withinRateLimit_eq] using refused
      obtain ⟨existing, kept⟩ :=
        (current_cases h.distinct now request.clientIp).resolve_right (fun fresh => by
          rw [fresh] at full
          exact absurd (Nat.lt_of_lt_of_le hlimit full) (Nat.lt_irrefl 0))
      generalize limiter.current now request.clientIp = window at full existing
      have young : now < window.started + minute := by
        by_contra old
        have notDue : now - limiter.lastCleanup < minute := by
          by_contra due
          rw [cleaned_window h.distinct, if_pos (by omega), existing] at kept
          have discarded : ¬ now - window.started < minute := by omega
          simp [Option.filter, discarded] at kept
        have late : overdue limit limiter now request.clientIp = true := by
          simp only [overdue, existing, Option.any_some, Bool.and_eq_true, decide_eq_true_eq]
          omega
        rw [late] at timely
        cases timely
      have covered := h.covers window existing
      have recent : admittedCount request.clientIp (fun time => window.started ≤ time) events ≤
          admittedCount request.clientIp (fun time => now < time + minute) events := by
        refine admittedCount_mono (fun time since => ?_) events
        simp only [decide_eq_true_eq] at since ⊢
        omega
      omega
    · omega

end Tracked

/-- After any run, a refused request follows so many admitted ones of its address within a
minute as the limit allows if and only if no full window of it is overdue. -/
theorem refusal_justified_iff (limit : UInt32) (started : Nat) (requests : List (Nat × Request))
    (now : Nat) (request : Request)
    (sorted : (requests.map Prod.fst ++ [now]).Pairwise (· ≤ ·)) :
    let limiter := rateAfter limit (.start started) requests
    ((withinRateLimit request limit now limiter).1 = false →
      limit.toNat ≤ admittedCount request.clientIp (fun time => now < time + minute)
        (rateRun limit (.start started) requests)) ↔
      overdue limit limiter now request.clientIp = false := by
  intro limiter
  obtain ⟨before, -, ordered⟩ := List.pairwise_append.mp sorted
  have tracked : Tracked limit request.clientIp (rateRun limit (.start started) requests) limiter
      now := by
    refine tracked_run limit started before (fun entry mem => ?_) request.clientIp
    exact ordered _ (List.mem_map_of_mem mem) now (by simp)
  exact tracked.refused_iff now

theorem secondPoll_justified :
    let requests := [(1, pollRequest (client 1))]
    (withinRateLimit (pollRequest (client 1)) 1 2 (rateAfter 1 (.start 0) requests)).1 = false ∧
      1 ≤ admittedCount (client 1) (fun time => 2 < time + minute)
        (rateRun 1 (.start 0) requests) := by
  intro requests
  have refused : (withinRateLimit (pollRequest (client 1)) 1 2
      (rateAfter 1 (.start 0) requests)).1 = false := by decide +kernel
  have timely := (refusal_justified_iff 1 0 requests 2 (pollRequest (client 1)) (by decide)).mpr
    (by decide +kernel)
  exact ⟨refused, timely refused⟩

/-- A request at 59 seconds, a clean-up caused by another address at 60, and a minute after
the first request the same address is still refused, with nothing admitted in between. -/
theorem waitedMinute_refused :
    let second := 10 ^ 9
    let requests := [(59 * second, pollRequest (client 1)), (60 * second, pollRequest (client 2))]
    (rateRun 1 (.start 0) requests).map (·.admitted) = [true, true] ∧
    (withinRateLimit (pollRequest (client 1)) 1 (119 * second)
      (rateAfter 1 (.start 0) requests)).1 = false ∧
    admittedCount (client 1) (fun time => 119 * second < time + minute)
      (rateRun 1 (.start 0) requests) = 0 := by
  decide +kernel

end Amatl
