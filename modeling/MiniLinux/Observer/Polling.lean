import MiniLinux.Observer.EventLog

/-! The page polls the server: `poll` of `web/app.js` against `tools/lab-server.py`.
A poll is one request and one answer, between which the guest goes on and may even be
replaced. The page's list of events is that of the guest at the moment of the answer.
-/

namespace MiniLinux

open Foundation

/-- What `Guest.snapshot` returns. -/
structure Snapshot where
  status : Text
  error : Text
  console : Text
  consoleBase : Nat
  events : List GuestEvent
  processes : List ProcessView
  maps : Dictionary Int (Dictionary Text MapView)
  data : Dictionary Int DataView
  frames : Int
  free : Int
  ticks : Int
  sequence : Nat

/-- `Guest.snapshot`, after it has looked at the QEMU process. -/
def Guest.snapshot (guest : Guest) : Snapshot :=
  { guest with processes := guest.processes.values }

/-- The answer to `/api/state`. -/
structure Reply extends Snapshot where
  epoch : Text

/-- `Laboratory` of the server. -/
structure Server where
  guest : Guest
  epoch : Text

/-- `Handler.do_GET` for `/api/state?after=..` -/
def Server.reply (server : Server) (after : Nat) : Reply :=
  { server.guest.snapshot with
    events := server.guest.snapshot.events.filter fun event => event.id > after
    epoch := server.epoch }

/-- The variables of `app.js` that `poll` works with; an empty epoch is the initial one. -/
structure Page where
  cursor : Nat
  epoch : Text
  state : Option Reply
  events : List GuestEvent
  consoleStart : Nat
  traceStart : Nat
  eventStart : Nat
  connectionFailed : Bool

/-- The page when its script starts. -/
def Page.start : Page := ⟨0, [], none, [], 0, 0, 0, false⟩

/-- How many events the page keeps. -/
@[irreducible] def pageEventLimit : Nat := 2000

/-- The end of `poll` when the answer is taken into the list. -/
def Page.take (page : Page) (reply : Reply) : Page :=
  { page with
    events := keepLast pageEventLimit (page.events ++ reply.events)
    cursor := reply.sequence }

/-- `poll` after a successful `read`. -/
def Page.receive (page : Page) (reply : Reply) : Page :=
  let page := { page with state := some reply, connectionFailed := false }
  if reply.epoch ≠ page.epoch then
    let cleared :=
      { page with
        epoch := reply.epoch, cursor := 0, events := [], consoleStart := 0, traceStart := 0
        eventStart := 0 }
    -- an old cursor can hide the beginning of the new guest's events
    if page.epoch ≠ [] then cleared else cleared.take reply
  else page.take reply

/-- `poll` after a failed `read`. -/
def Page.fail (page : Page) : Page := { page with connectionFailed := true }

/-- Where the one poll of the page stands. -/
inductive Exchange where
  | idle
  | asked (after : Nat)
  | answered (reply : Reply)

/-- The server, the page and the poll between them; `drawn` are the epochs drawn so far. -/
structure Session where
  server : Server
  page : Page
  exchange : Exchange
  drawn : List Text

/-- What can happen: the readers of the guest, the operations of the server and the steps of
a poll. `quit` says that QEMU has ended when the answer is made.
-/
inductive SessionEvent where
  | record (line : Text)
  | console (chunk : List Byte)
  | readerEnds (caught : Text)
  | stop
  | restart (epoch : Text)
  | ask
  | answer (quit : Bool)
  | deliver
  | lose

def Session.withGuest (session : Session) (guest : Guest) : Session :=
  { session with server := { session.server with guest := guest } }

/-- The page asks for the events after its cursor. -/
def Session.ask (session : Session) : Session :=
  match session.exchange with
  | .idle => { session with exchange := .asked session.page.cursor }
  | _ => session

/-- The server answers the page's request. -/
def Session.answer (session : Session) (quit : Bool) : Session :=
  match session.exchange with
  | .asked after =>
      let guest := session.server.guest
      let guest := if quit then { guest with status := "disconnected".toList } else guest
      let session := session.withGuest guest
      { session with exchange := .answered (session.server.reply after) }
  | _ => session

/-- The answer reaches the page. -/
def Session.deliver (session : Session) : Session :=
  match session.exchange with
  | .answered reply => { session with page := session.page.receive reply, exchange := .idle }
  | _ => session

/-- The poll fails. -/
def Session.lose (session : Session) : Session :=
  match session.exchange with
  | .idle => session
  | _ => { session with page := session.page.fail, exchange := .idle }

/-- One event; a step of the poll that is not due does nothing. -/
def Session.step (session : Session) : SessionEvent → Session
  | .record line => session.withGuest (GuestM.after (guestEvent line) session.server.guest)
  | .console chunk => session.withGuest (session.server.guest.readConsole chunk)
  | .readerEnds caught => session.withGuest (session.server.guest.readerEnds caught)
  | .stop => session.withGuest { session.server.guest with status := "stopped".toList }
  | .restart epoch =>
      { session with server := ⟨Guest.fresh, epoch⟩, drawn := epoch :: session.drawn }
  | .ask => session.ask
  | .answer quit => session.answer quit
  | .deliver => session.deliver
  | .lose => session.lose

/-- The server has started its first guest and the page its script. -/
def Session.start (epoch : Text) : Session :=
  ⟨⟨Guest.fresh, epoch⟩, Page.start, .idle, [epoch]⟩

/-- Every restart draws an epoch that is not empty and was not drawn before. -/
def Session.Permits (session : Session) : SessionEvent → Prop
  | .restart epoch => epoch ≠ [] ∧ epoch ∉ session.drawn
  | _ => True

/-- The sessions that any order of events can reach. -/
inductive Session.Reached : Session → Prop
  | start {epoch : Text} (drawn : epoch ≠ []) : Reached (Session.start epoch)
  | step {session : Session} (event : SessionEvent) (reached : Reached session)
      (permits : session.Permits event)
      : Reached (session.step event)

/-- The events of the page with its cursor, as a log. -/
def Page.log (page : Page) : BoundedLog GuestEvent := ⟨page.events, page.cursor⟩

/-- The page's log is one from which the guest's log has grown. -/
def Page.Behind (page : Page) (guest : Guest) : Prop :=
  page.log.Extends eventLimit GuestEvent.id guest.log

/-- Any log extends that of a page that has fetched nothing. -/
theorem Guest.Logged.behind {guest : Guest} (logged : guest.Logged) {page : Page}
    (empty : page.log = BoundedLog.empty)
    : page.Behind guest := by
  unfold Page.Behind
  rw [empty]
  exact logged.extends_empty

/-- The reply tells of the guest what is after a position. -/
structure Reply.Tells (reply : Reply) (guest : Guest) (position : Nat) : Prop where
  events : reply.events = guest.log.after GuestEvent.id position
  sequence : reply.sequence = guest.sequence

theorem Server.reply_tells (server : Server) (after : Nat)
    : (server.reply after).Tells server.guest after :=
  ⟨rfl, rfl⟩

/-- A page that takes what is after its cursor holds the guest's log. -/
theorem Page.Behind.take {page page' : Page} {guest : Guest} (behind : page.Behind guest)
    (same : page'.log = page.log) {reply : Reply} (tells : reply.Tells guest page.cursor)
    : (page'.take reply).log = guest.log := by
  obtain ⟨events, _⟩ := BoundedLog.mk.inj same
  have limits : pageEventLimit = eventLimit := by
    unfold pageEventLimit eventLimit
    rfl
  have caught := behind.catchUp
  simp only [Page.take, Page.log, limits, events, tells.events, tells.sequence]
  exact congrArg₂ BoundedLog.mk caught rfl

/-- What the page holds after a reply about a guest: that guest's log, unless the page saw the
epoch change.
-/
theorem Page.receive_spec {page : Page} {reply : Reply} {guest : Guest}
    (tells : reply.Tells guest page.cursor) (logged : guest.Logged)
    (initial : page.epoch = [] → page.log = BoundedLog.empty)
    (behind : page.epoch = reply.epoch → page.Behind guest)
    : (page.receive reply).epoch = reply.epoch
      ∧ (page.epoch = [] ∨ page.epoch = reply.epoch → (page.receive reply).log = guest.log)
      ∧ (page.epoch ≠ [] → page.epoch ≠ reply.epoch
        → (page.receive reply).log = BoundedLog.empty) := by
  unfold Page.receive
  dsimp only
  by_cases same : reply.epoch = page.epoch
  · rw [if_neg (not_not.mpr same)]
    refine ⟨same.symm, fun _ => (behind same.symm).take rfl tells, ?_⟩
    intro _ different
    exact absurd same.symm different
  · rw [if_pos same]
    by_cases named : page.epoch = []
    · have empty := initial named
      rw [if_neg (not_not.mpr named)]
      refine ⟨rfl, fun _ => ?_, ?_⟩
      · apply (logged.behind empty).take _ tells
        exact empty.symm
      · intro impossible
        exact absurd named impossible
    · rw [if_pos named]
      refine ⟨rfl, ?_, fun _ _ => rfl⟩
      intro either
      rcases either with empty | equal
      · exact absurd empty named
      · exact absurd equal.symm same

/-- An answer that was made for the page's cursor by a guest that may still be running. -/
structure Session.Answered (session : Session) (reply : Reply) : Prop where
  made
    : ∃ server : Server,
        reply = server.reply session.page.cursor
        ∧ server.epoch ∈ session.drawn
        ∧ server.guest.Logged
        ∧ (session.page.epoch = server.epoch → session.page.Behind server.guest)
        ∧ (server.epoch = session.server.epoch → server.guest.Follows session.server.guest)

/-- The invariant of a session. -/
structure Session.InStep (session : Session) : Prop where
  logged : session.server.guest.Logged
  drawn : session.server.epoch ∈ session.drawn
  real : ∀ epoch ∈ session.drawn, epoch ≠ []
  initial : session.page.epoch = [] → session.page.log = BoundedLog.empty
  known : session.page.epoch ≠ [] → session.page.epoch ∈ session.drawn
  behind : session.page.epoch = session.server.epoch → session.page.Behind session.server.guest
  asked : ∀ after, session.exchange = .asked after → after = session.page.cursor
  answered : ∀ reply, session.exchange = .answered reply → session.Answered reply

namespace Session.InStep

variable {session : Session}

theorem start {epoch : Text} (drawn : epoch ≠ []) : (Session.start epoch).InStep where
  logged := .fresh
  drawn := List.mem_singleton_self _
  real other member := (List.mem_singleton.mp member).symm ▸ drawn
  initial _ := rfl
  known impossible := absurd rfl impossible
  behind same := absurd same.symm drawn
  asked _ impossible := by cases impossible
  answered _ impossible := by cases impossible

/-- The guest goes on. -/
theorem withGuest (inStep : session.InStep) {guest : Guest} (logged : guest.Logged)
    (follows : session.server.guest.Follows guest)
    : (session.withGuest guest).InStep where
  logged := logged
  drawn := inStep.drawn
  real := inStep.real
  initial := inStep.initial
  known := inStep.known
  behind same := (inStep.behind same).trans follows
  asked := inStep.asked
  answered reply made := by
    obtain ⟨server, same, drawn, logged', behind, running⟩ := (inStep.answered reply made).made
    exact ⟨server, same, drawn, logged', behind, fun epoch => (running epoch).trans follows⟩

/-- A change of the guest that its log does not show. -/
theorem quiet (inStep : session.InStep) {guest : Guest}
    (same : guest.log = session.server.guest.log)
    : (session.withGuest guest).InStep :=
  inStep.withGuest (inStep.logged.congr same) (inStep.logged.follows_self.congr same)

theorem restart (inStep : session.InStep) {epoch : Text} (real : epoch ≠ [])
    (fresh : epoch ∉ session.drawn)
    : (session.step (.restart epoch)).InStep where
  logged := .fresh
  drawn := List.mem_cons_self
  real other member := by
    rcases List.mem_cons.mp member with same | member
    · exact same ▸ real
    · exact inStep.real other member
  initial := inStep.initial
  known named := List.mem_cons_of_mem _ (inStep.known named)
  behind same := by
    have same : session.page.epoch = epoch := same
    have named : session.page.epoch ≠ [] := by
      intro empty
      exact real (same.symm.trans empty)
    exact absurd (same ▸ inStep.known named) fresh
  asked := inStep.asked
  answered reply made := by
    obtain ⟨server, same, drawn, logged, behind, _⟩ := (inStep.answered reply made).made
    refine ⟨server, same, List.mem_cons_of_mem _ drawn, logged, behind, fun running => ?_⟩
    rw [running] at drawn
    exact absurd drawn fresh

theorem ask (inStep : session.InStep) : session.ask.InStep := by
  unfold Session.ask
  split
  · refine { inStep with asked := ?_, answered := ?_ }
    · intro after same
      cases same
      rfl
    · intro reply impossible
      cases impossible
  · exact inStep

theorem answer (inStep : session.InStep) (quit : Bool) : (session.answer quit).InStep := by
  unfold Session.answer
  split
  · next after asked =>
      let guest : Guest :=
        if quit then { session.server.guest with status := "disconnected".toList }
        else session.server.guest
      have same : guest.log = session.server.guest.log := by
        unfold guest
        split <;> rfl
      have quiet := inStep.quiet same
      refine { quiet with asked := ?_, answered := ?_ }
      · intro after impossible
        cases impossible
      · intro reply made
        cases made
        refine ⟨(session.withGuest guest).server, ?_, quiet.drawn, quiet.logged, quiet.behind,
          fun _ => quiet.logged.follows_self⟩
        rw [inStep.asked after asked]
        rfl
  · exact inStep

theorem deliver (inStep : session.InStep) : session.deliver.InStep := by
  unfold Session.deliver
  split
  · next reply answered =>
      obtain ⟨server, made, drawn, logged, behind, running⟩ := (inStep.answered reply answered).made
      subst made
      obtain ⟨epoch, took, changed⟩ :=
        Page.receive_spec (server.reply_tells _) logged inStep.initial behind
      refine ⟨inStep.logged, inStep.drawn, inStep.real, ?_, ?_, ?_, ?_, ?_⟩
      · intro empty
        exact absurd (epoch.symm.trans empty) (inStep.real _ drawn)
      · intro _
        exact epoch ▸ drawn
      · intro same
        have current : server.epoch = session.server.epoch := epoch.symm.trans same
        by_cases whole : session.page.epoch = [] ∨ session.page.epoch = server.epoch
        · have log := took whole
          unfold Page.Behind
          rw [log]
          exact running current
        · obtain ⟨named, different⟩ := not_or.mp whole
          exact inStep.logged.behind (changed named different)
      · intro after impossible
        cases impossible
      · intro reply impossible
        cases impossible
  · exact inStep

theorem lose (inStep : session.InStep) : session.lose.InStep := by
  unfold Session.lose
  split
  · exact inStep
  · refine ⟨inStep.logged, inStep.drawn, inStep.real, inStep.initial, inStep.known, inStep.behind,
      ?_, ?_⟩
    · intro after impossible
      cases impossible
    · intro reply impossible
      cases impossible

/-- Every permitted event keeps the invariant. -/
theorem step (inStep : session.InStep) {event : SessionEvent} (permits : session.Permits event)
    : (session.step event).InStep := by
  cases event with
  | record line =>
      obtain ⟨logged, follows⟩ := inStep.logged.guestEvent line
      exact inStep.withGuest logged follows
  | console chunk => exact inStep.quiet (Guest.readConsole_log _ _)
  | readerEnds caught => exact inStep.quiet (Guest.readerEnds_log _ _)
  | stop => exact inStep.quiet rfl
  | restart epoch => exact inStep.restart permits.1 permits.2
  | ask => exact inStep.ask
  | answer quit => exact inStep.answer quit
  | deliver => exact inStep.deliver
  | lose => exact inStep.lose

end Session.InStep

/-- Witness: induction on the events. -/
theorem Session.Reached.inStep {session : Session} (reached : session.Reached)
    : session.InStep := by
  induction reached with
  | start drawn => exact .start drawn
  | step _ _ permits ih => exact ih.step permits

/-- The session after several events. -/
def Session.run (session : Session) (events : List SessionEvent) : Session :=
  events.foldl Session.step session

/-- The events that end a poll. -/
def SessionEvent.EndsPoll (event : SessionEvent) : Prop := event = .deliver ∨ event = .lose

/-- Until the poll ends, an answer waits and the page stays as it is. -/
theorem Session.run_waiting {session : Session} {reply : Reply}
    (answered : session.exchange = .answered reply) {events : List SessionEvent}
    (waiting : ∀ event ∈ events, ¬event.EndsPoll)
    : (session.run events).exchange = .answered reply
      ∧ (session.run events).page = session.page := by
  induction events generalizing session with
  | nil => exact ⟨answered, rfl⟩
  | cons event rest ih =>
      have goesOn := waiting event List.mem_cons_self
      have kept : (session.step event).exchange = .answered reply
          ∧ (session.step event).page = session.page := by
        cases event with
        | deliver => exact absurd (Or.inl rfl) goesOn
        | lose => exact absurd (Or.inr rfl) goesOn
        | ask => simp [Session.step, Session.ask, answered]
        | answer quit => simp [Session.step, Session.answer, answered]
        | record | console | readerEnds | stop | restart =>
            simp [Session.step, Session.withGuest, answered]
      obtain ⟨exchange, page⟩ :=
        ih kept.1 fun later member => waiting later (List.mem_cons_of_mem _ member)
      exact ⟨exchange, page.trans kept.2⟩

/-- Let a poll be answered in any reachable session and delivered after any other events. If
the page sees no change of epoch, its first poll included, its list is that of the guest when
the answer was made and its cursor that guest's count; if it sees one, it holds nothing. The
list is in the order of the records and has each at most once.
-/
theorem polling_equals_fetching {session : Session} (reached : session.Reached) {after : Nat}
    (asked : session.exchange = .asked after) (quit : Bool) {others : List SessionEvent}
    (waiting : ∀ event ∈ others, ¬event.EndsPoll) {page : Page}
    (delivered : page = (((session.step (.answer quit)).run others).step .deliver).page)
    : (session.page.epoch = [] ∨ session.page.epoch = session.server.epoch
        → page.events = session.server.guest.events
          ∧ page.cursor = session.server.guest.sequence)
      ∧ (session.page.epoch ≠ [] → session.page.epoch ≠ session.server.epoch
        → page.events = [] ∧ page.cursor = 0)
      ∧ page.events.Pairwise fun event later => event.id < later.id := by
  have inStep := reached.inStep
  have answered := inStep.answer quit
  obtain ⟨reply, made, log, epoch, unchanged⟩
      : ∃ reply,
          (session.answer quit).exchange = .answered reply
          ∧ (session.answer quit).server.guest.log = session.server.guest.log
          ∧ (session.answer quit).server.epoch = session.server.epoch
          ∧ (session.answer quit).page = session.page := by
    simp only [Session.answer, asked]
    refine ⟨_, rfl, ?_, rfl, rfl⟩
    unfold Session.withGuest
    dsimp only
    split <;> rfl
  have reply_eq : reply
      = (session.answer quit).server.reply (session.answer quit).page.cursor := by
    have cursor := inStep.asked after asked
    simp only [Session.answer, asked, Exchange.answered.injEq] at made ⊢
    rw [← made, cursor]
    rfl
  obtain ⟨waits, page_eq⟩ := Session.run_waiting made waiting
  have tells : reply.Tells (session.answer quit).server.guest (session.answer quit).page.cursor := by
    rw [reply_eq]
    exact Server.reply_tells _ _
  have same : reply.epoch = (session.answer quit).server.epoch := by
    rw [reply_eq]
    rfl
  obtain ⟨_, took, changed⟩ :=
    Page.receive_spec tells answered.logged answered.initial (same ▸ answered.behind)
  have received : page = session.page.receive reply := by
    have last : (((session.answer quit).run others).deliver).page
        = ((session.answer quit).run others).page.receive reply := by
      simp only [Session.deliver, waits]
    rw [page_eq, unchanged] at last
    exact delivered.trans last
  rw [same, unchanged, epoch, ← received] at took changed
  rw [log] at took
  have first (whole : session.page.epoch = [] ∨ session.page.epoch = session.server.epoch)
      : page.events = session.server.guest.events
        ∧ page.cursor = session.server.guest.sequence :=
    BoundedLog.mk.inj (took whole)
  have second (named : session.page.epoch ≠ [])
      (different : session.page.epoch ≠ session.server.epoch)
      : page.events = [] ∧ page.cursor = 0 :=
    BoundedLog.mk.inj (changed named different)
  refine ⟨first, second, ?_⟩
  by_cases whole : session.page.epoch = [] ∨ session.page.epoch = session.server.epoch
  · rw [(first whole).1]
    exact inStep.logged.ordered
  · obtain ⟨named, different⟩ := not_or.mp whole
    rw [(second named different).1]
    exact .nil

/-- A guest that has sent one record, and a page that polls for the first time. -/
def sampleSession : Session :=
  ((Session.start "a".toList).step (.record "ML\tspawn\t0\t1\t0\t0".toList)).step .ask

/-- The guest is replaced while the first answer is on its way. -/
theorem polling_equals_fetching_on_sample
    : (((sampleSession.step (.answer false)).run [.restart "b".toList]).step .deliver).page.events
      = sampleSession.server.guest.events := by
  have reached : sampleSession.Reached :=
    .step .ask (.step (.record _) (.start (by decide)) trivial) trivial
  have asked : sampleSession.exchange = .asked 0 := by
    simp [sampleSession, Session.step, Session.ask, Session.withGuest, Session.start, Page.start]
  have first : sampleSession.page.epoch = [] := by
    simp [sampleSession, Session.step, Session.ask, Session.withGuest, Session.start, Page.start]
  have waiting : ∀ event ∈ [SessionEvent.restart "b".toList], ¬event.EndsPoll := by
    simp [SessionEvent.EndsPoll]
  exact ((polling_equals_fetching reached asked false waiting rfl).1 (Or.inl first)).1

end MiniLinux
