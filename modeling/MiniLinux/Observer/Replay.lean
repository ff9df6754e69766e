import MiniLinux.Foundation.Rounding
import MiniLinux.Observer.Console

/-! The replay of recorded clips, `web/replay.js`, under the same `poll` of the page.
The player keeps a start time that it moves forward by every pause; the frame it shows is
the last one that is due after the time spent playing, as far as its sums of doubles tell. A call
that comes before the recording is there waits for a fetch of its own.
-/

namespace MiniLinux

open Foundation

/-- The clips of a recording; there is a first one. -/
structure Recording where
  first : Clip
  others : List Clip

def Recording.clips (recording : Recording) : List Clip := recording.first :: recording.others

/-- What a sum or a difference of doubles gives. -/
def double (value : ℚ) : ℚ := roundBinary 53 value

/-- The object `laboratory` of `replay.js`; times are those of `performance.now()`. -/
structure Player where
  loaded : Bool
  clip : Clip
  frame : Nat
  started : ℚ
  epoch : Nat
  stopped : Bool
  pausedAt : ℚ

/-- The player before it has loaded the recording. -/
def Player.unloaded (recording : Recording) : Player := ⟨false, recording.first, 0, 0, 0, false, 0⟩

/-- `select` -/
def Player.select (player : Player) (clip : Clip) (now : ℚ) : Player :=
  { player with clip, frame := 0, started := now, epoch := player.epoch + 1, stopped := false }

/-- The end of `load`. Another call may have loaded the recording in the meantime; it is selected
all the same.
-/
def Player.fetched (player : Player) (recording : Recording) (now : ℚ) : Player :=
  { player.select recording.first now with loaded := true }

/-- The loop of `read`, for at most as many rounds as there are frames. -/
def advanceFrame (frames : List ClipFrame) (elapsed : ℚ) : Nat → Nat → Nat
  | 0, frame => frame
  | rounds + 1, frame =>
      match frames[frame + 1]? with
      | none => frame
      | some next =>
          if next.time ≤ elapsed then advanceFrame frames elapsed rounds (frame + 1) else frame

/-- The player after the loop of `read`. -/
def Player.advance (player : Player) (now : ℚ) : Player :=
  if player.stopped then player
  else
    { player with
      frame :=
        advanceFrame player.clip.frames (double (now - player.started)) player.clip.frames.length
          player.frame }

/-- The epoch that `read` reports. -/
def replayEpoch (epoch : Nat) : Text := "replay-".toList ++ Nat.toDigits 10 epoch

/-- What `read` returns at a frame of the clip. -/
def Player.frameReply (player : Player) (after : Nat) (frame : ClipFrame) : Reply :=
  { frame.state with
    events :=
      (retainedEvents player.clip.frames player.frame).filter fun event => event.id > after
    epoch := replayEpoch player.epoch
    status := if player.stopped then "paused".toList else "running".toList }

/-- The reply of `read`; there is none when the frame is outside the clip. -/
def Player.reply (player : Player) (after : Nat) : Option Reply :=
  player.clip.frames[player.frame]?.map (player.frameReply after)

/-- `post` with `/api/stop` -/
def Player.toggle (player : Player) (now : ℚ) : Player :=
  if player.stopped then
    { player with
      started := double (player.started + double (now - player.pausedAt)), stopped := false }
  else { player with pausedAt := now, stopped := true }

/-- `post` with `/api/input`; an unknown command selects nothing. -/
def Player.input (player : Player) (recording : Recording) (command : Text) (now : ℚ) : Player :=
  match recording.clips.find? fun clip => clip.command = command with
  | none => player
  | some clip => player.select clip now

/-- The paths of `post`: `/api/stop`, `/api/restart`, and `/api/input`, whose text is already
trimmed.
-/
inductive Control where
  | stop
  | restart
  | input (command : Text)

/-- `post` after `load` -/
def Player.post (player : Player) (recording : Recording) (now : ℚ) : Control → Player
  | .stop => player.toggle now
  | .restart => player.select recording.first now
  | .input command => player.input recording command now

/-- Where the one poll of the page stands. `after` is the cursor that it was called with. -/
inductive Polling where
  | idle
  | fetching (after : Nat)
  | loaded (after : Nat)

/-- The player and the page. `fetching` are the calls of `post` that wait for a fetch each, and
`loaded` those whose `load` has ended.
-/
structure Viewer where
  player : Player
  page : Page
  polling : Polling
  fetching : List Control
  loaded : List Control

/-- The page opens. -/
def Viewer.start (recording : Recording) : Viewer :=
  ⟨Player.unloaded recording, Page.start, .idle, [], []⟩

/-- What can happen: `poll` and `post` are called, a fetch brings the recording or fails, and a
call goes on after `load`.
-/
inductive ViewerEvent where
  | poll
  | pollFetched
  | pollFailed
  | read
  | post (control : Control)
  | fetched (index : Nat)
  | failed (index : Nat)
  | run (index : Nat)

/-- The rest of `poll` after `load`; a frame outside the clip fails it. The clock may move on in
the loop of `read`; its last reading decides.
-/
def Viewer.read (viewer : Viewer) (after : Nat) (now : ℚ) : Viewer :=
  let player := viewer.player.advance now
  match player.reply after with
  | none => { viewer with player, page := viewer.page.fail, polling := .idle }
  | some reply => { viewer with player, page := viewer.page.receive reply, polling := .idle }

/-- One event at a time; what cannot happen changes nothing. -/
def Viewer.step (recording : Recording) (viewer : Viewer) (now : ℚ) : ViewerEvent → Viewer
  | .poll =>
      match viewer.polling with
      | .idle =>
          let polling : Polling :=
            if viewer.player.loaded then .loaded viewer.page.cursor
            else .fetching viewer.page.cursor
          { viewer with polling }
      | _ => viewer
  | .pollFetched =>
      match viewer.polling with
      | .fetching after =>
          { viewer with player := viewer.player.fetched recording now, polling := .loaded after }
      | _ => viewer
  | .pollFailed =>
      match viewer.polling with
      | .fetching _ => { viewer with page := viewer.page.fail, polling := .idle }
      | _ => viewer
  | .read =>
      match viewer.polling with
      | .loaded after => viewer.read after now
      | _ => viewer
  | .post control =>
      if viewer.player.loaded then { viewer with loaded := viewer.loaded ++ [control] }
      else { viewer with fetching := viewer.fetching ++ [control] }
  | .fetched index =>
      match viewer.fetching[index]? with
      | none => viewer
      | some control =>
          { viewer with
            player := viewer.player.fetched recording now
            fetching := viewer.fetching.eraseIdx index
            loaded := viewer.loaded ++ [control] }
  | .failed index => { viewer with fetching := viewer.fetching.eraseIdx index }
  | .run index =>
      match viewer.loaded[index]? with
      | none => viewer
      | some control =>
          { viewer with
            player := viewer.player.post recording now control
            loaded := viewer.loaded.eraseIdx index }

-----------------------------------------------------------------------------------------
-- The time played
-----------------------------------------------------------------------------------------

/-- A stopwatch that stands still in a pause; `pauses` counts those that have ended. -/
structure Stopwatch where
  begun : ℚ
  paused : ℚ
  pausedSince : Option ℚ
  pauses : Nat

namespace Stopwatch

/-- The watch is started. -/
def start (now : ℚ) : Stopwatch := ⟨now, 0, none, 0⟩

/-- The time since the start without the pauses. -/
def played (watch : Stopwatch) (now : ℚ) : ℚ :=
  watch.pausedSince.getD now - watch.begun - watch.paused

/-- How far the sums of the player may be off: each pause takes two roundings, and the time since
the start one more.
-/
def slack (watch : Stopwatch) (now : ℚ) : ℚ := now * drift 53 (2 * watch.pauses + 1)

/-- A pause begins or ends. -/
def toggle (watch : Stopwatch) (now : ℚ) : Stopwatch :=
  match watch.pausedSince with
  | none => { watch with pausedSince := some now }
  | some since =>
      { watch with
        paused := watch.paused + (now - since), pausedSince := none, pauses := watch.pauses + 1 }

/-- The watch after a call of `post`. -/
def control (recording : Recording) (watch : Stopwatch) (now : ℚ) : Control → Stopwatch
  | .stop => watch.toggle now
  | .restart => start now
  | .input command =>
      if recording.clips.any fun clip => clip.command = command then start now else watch

/-- The watch of the current selection after an event: a selection starts it, `/api/stop`
begins or ends a pause. Every fetch that brings the recording selects the first clip.
-/
def after (recording : Recording) (viewer : Viewer) (watch : Stopwatch) (now : ℚ)
    : ViewerEvent → Stopwatch
  | .pollFetched =>
      match viewer.polling with
      | .fetching _ => start now
      | _ => watch
  | .fetched index =>
      match viewer.fetching[index]? with
      | none => watch
      | some _ => start now
  | .run index =>
      match viewer.loaded[index]? with
      | none => watch
      | some control => watch.control recording now control
  | _ => watch

/-- The times of a watch are in order. -/
structure Sound (watch : Stopwatch) (now : ℚ) : Prop where
  begun : 0 ≤ watch.begun
  paused : 0 ≤ watch.paused
  played : 0 ≤ watch.played now
  since : ∀ since, watch.pausedSince = some since → since ≤ now

theorem toggle_played (watch : Stopwatch) (now : ℚ)
    : (watch.toggle now).played now = watch.played now := by
  obtain ⟨begun, paused, since, pauses⟩ := watch
  cases since with
  | none => rfl
  | some since =>
      simp only [toggle, played, Option.getD_none, Option.getD_some]
      ring

theorem played_mono (watch : Stopwatch) {now later : ℚ} (order : now ≤ later)
    : watch.played now ≤ watch.played later := by
  obtain ⟨begun, paused, since, pauses⟩ := watch
  cases since with
  | none =>
      simp only [played, Option.getD_none]
      linarith
  | some since => exact le_refl _

theorem slack_mono (watch : Stopwatch) {now later : ℚ} (order : now ≤ later)
    : watch.slack now ≤ watch.slack later :=
  mul_le_mul_of_nonneg_right order (drift_nonneg ..)

namespace Sound

variable {watch : Stopwatch} {now later : ℚ}

theorem start (nonneg : 0 ≤ now) : (Stopwatch.start now).Sound now := by
  refine ⟨nonneg, le_refl _, ?_, nofun⟩
  simp [Stopwatch.start, Stopwatch.played]

theorem wait (sound : watch.Sound now) (order : now ≤ later) : watch.Sound later :=
  ⟨sound.begun, sound.paused, sound.played.trans (watch.played_mono order),
    fun since known => (sound.since since known).trans order⟩

theorem nonneg (sound : watch.Sound now) : 0 ≤ now := by
  have begun := sound.begun
  have paused := sound.paused
  have played := sound.played
  rw [Stopwatch.played] at played
  cases known : watch.pausedSince with
  | none =>
      rw [known, Option.getD_none] at played
      linarith
  | some since =>
      have late := sound.since since known
      rw [known, Option.getD_some] at played
      linarith

theorem toggle (sound : watch.Sound now) : (watch.toggle now).Sound now := by
  have played := sound.played
  rw [← watch.toggle_played] at played
  unfold Stopwatch.toggle at played ⊢
  cases known : watch.pausedSince with
  | none =>
      rw [known] at played
      refine ⟨sound.begun, sound.paused, played, fun since same => ?_⟩
      cases same
      exact le_refl _
  | some since =>
      rw [known] at played
      have late := sound.since since known
      exact ⟨sound.begun, add_nonneg sound.paused (sub_nonneg.mpr late), played, nofun⟩

end Sound

end Stopwatch

-----------------------------------------------------------------------------------------
-- Runs
-----------------------------------------------------------------------------------------

/-- The viewers that any schedule of events at non-decreasing times can reach, with the watch
of the current selection and the time of the last event.
-/
inductive Viewer.Reached (recording : Recording) : Viewer → Stopwatch → ℚ → Prop
  | start {now : ℚ} (nonneg : 0 ≤ now)
      : Reached recording (Viewer.start recording) (Stopwatch.start now) now
  | step {viewer : Viewer} {watch : Stopwatch} {last now : ℚ} (event : ViewerEvent)
      (reached : Reached recording viewer watch last) (order : last ≤ now)
      : Reached recording (viewer.step recording now event)
          (watch.after recording viewer now event) now

/-- The frames up to `k` are due after the given time. -/
def DueUpTo (frames : List ClipFrame) (elapsed : ℚ) (k : Nat) : Prop :=
  ∀ i ≤ k, ∀ frame, frames[i]? = some frame → frame.time ≤ elapsed

theorem DueUpTo.mono {frames : List ClipFrame} {elapsed elapsed' : ℚ} {k : Nat}
    (due : DueUpTo frames elapsed k) (order : elapsed ≤ elapsed')
    : DueUpTo frames elapsed' k :=
  fun i bound frame here => (due i bound frame here).trans order

/-- Up to a slack, frame `k` is the last up to which all are due. -/
structure LastDue (frames : List ClipFrame) (elapsed slack : ℚ) (k : Nat) : Prop where
  inside : k < frames.length
  due : DueUpTo frames (elapsed + slack) k
  last : ∀ j < frames.length, DueUpTo frames (elapsed - slack) j → j ≤ k

/-- The loop goes on over frames that are due and stops before one that is not. Witness: induction
on the rounds.
-/
theorem advanceFrame_spec {frames : List ClipFrame} {elapsed : ℚ} {rounds frame : Nat}
    (inside : frame < frames.length) (enough : frames.length ≤ frame + rounds)
    : frame ≤ advanceFrame frames elapsed rounds frame
      ∧ advanceFrame frames elapsed rounds frame < frames.length
      ∧ (∀ i ≤ advanceFrame frames elapsed rounds frame,
          frame < i → ∀ passed, frames[i]? = some passed → passed.time ≤ elapsed)
      ∧ ∀ next,
          frames[advanceFrame frames elapsed rounds frame + 1]? = some next
          → elapsed < next.time := by
  induction rounds generalizing frame with
  | zero => omega
  | succ rounds ih =>
      have none {i : Nat} (bound : i ≤ frame) (beyond : frame < i) : False :=
        absurd bound (Nat.not_le.mpr beyond)
      unfold advanceFrame
      cases found : frames[frame + 1]? with
      | none =>
          refine ⟨le_refl _, inside, fun i bound beyond => (none bound beyond).elim, ?_⟩
          intro next here
          cases found.symm.trans here
      | some next =>
          dsimp only
          split
          · next now =>
              obtain ⟨inside', _⟩ := List.getElem?_eq_some_iff.mp found
              obtain ⟨order, bounded, passed, stops⟩ := ih inside' (by omega)
              refine ⟨by omega, bounded, ?_, stops⟩
              intro i bound beyond other here
              rcases Nat.lt_or_eq_of_le (show frame + 1 ≤ i from beyond) with further | same
              · exact passed i bound further other here
              · subst same
                cases found.symm.trans here
                exact now
          · next late =>
              refine ⟨le_refl _, inside, fun i bound beyond => (none bound beyond).elim, ?_⟩
              intro other here
              cases found.symm.trans here
              exact not_le.mp late

/-- Different selections are told apart. -/
theorem replayEpoch_injective {epoch epoch' : Nat} (same : replayEpoch epoch = replayEpoch epoch')
    : epoch = epoch' := by
  unfold replayEpoch at same
  have values := congrArg (fun digits => Nat.ofDigitChars 10 digits 0) (List.append_cancel_left same)
  simpa only [Nat.ofDigitChars_ten_toDigits] using values

theorem replayEpoch_ne_nil (epoch : Nat) : replayEpoch epoch ≠ [] :=
  List.append_ne_nil_of_left_ne_nil (by decide) _

/-- The log of a page that has read frame `k`. -/
def ClipFrame.log (frames : List ClipFrame) (k : Nat) : BoundedLog GuestEvent :=
  ⟨retainedEvents frames k, (frames[k]?.map fun frame => frame.state.sequence).getD 0⟩

/-- The player agrees with the watch, up to its roundings. -/
structure Player.Plays (recording : Recording) (player : Player) (watch : Stopwatch) (now : ℚ)
    : Prop where
  clip : player.clip ∈ recording.clips
  inside : player.frame < player.clip.frames.length
  sound : watch.Sound now
  started : Near 53 now (2 * watch.pauses) player.started (watch.begun + watch.paused)
  stopped : watch.pausedSince = if player.stopped then some player.pausedAt else none
  due : DueUpTo player.clip.frames (watch.played now + watch.slack now) player.frame
  begun : 0 < player.epoch

/-- The page has read a frame of the current selection, of an earlier one or none. -/
structure Page.Reads (page : Page) (player : Player) : Prop where
  initial : page.epoch = [] → page.log = BoundedLog.empty
  earlier : page.epoch ≠ [] → ∃ epoch ≤ player.epoch, page.epoch = replayEpoch epoch
  current
    : page.epoch = replayEpoch player.epoch
      → page.log = BoundedLog.empty
        ∨ ∃ k ≤ player.frame, page.log = ClipFrame.log player.clip.frames k

/-- The invariant of a viewer. Calls go on after `load` only when the recording is there, and a
poll under way has the cursor of the page.
-/
structure Viewer.Shows (recording : Recording) (viewer : Viewer) (watch : Stopwatch) (now : ℚ)
    : Prop where
  nonneg : 0 ≤ now
  plays : viewer.player.loaded → viewer.player.Plays recording watch now
  unloaded
    : ¬viewer.player.loaded
      → viewer.player = Player.unloaded recording
        ∧ (∀ after, viewer.polling ≠ .loaded after)
        ∧ viewer.loaded = []
  asked
    : ∀ after,
        viewer.polling = .fetching after ∨ viewer.polling = .loaded after
        → after = viewer.page.cursor
  reads : viewer.page.Reads viewer.player

/-- Every clip was made by the recorder. -/
def Recording.Real (recording : Recording) : Prop :=
  ∀ clip ∈ recording.clips, ∃ guests, clip.Recorded guests

namespace Page.Reads

variable {page : Page} {player player' : Player}

/-- A selection makes every epoch that the page knows an old one. -/
theorem selected (reads : page.Reads player) (newer : player.epoch < player'.epoch)
    : page.Reads player' where
  initial := reads.initial
  earlier named := by
    obtain ⟨epoch, bound, same⟩ := reads.earlier named
    exact ⟨epoch, by omega, same⟩
  current same := by
    have named : page.epoch ≠ [] := by
      rw [same]
      exact replayEpoch_ne_nil _
    obtain ⟨epoch, bound, old⟩ := reads.earlier named
    have equal := replayEpoch_injective (old.symm.trans same)
    omega

/-- Within a selection the frame only grows. -/
theorem moved (reads : page.Reads player) (epoch : player'.epoch = player.epoch)
    (clip : player'.clip = player.clip) (order : player.frame ≤ player'.frame)
    : page.Reads player' where
  initial := reads.initial
  earlier := by
    rw [epoch]
    exact reads.earlier
  current := by
    rw [epoch, clip]
    intro same
    rcases reads.current same with empty | read
    · exact Or.inl empty
    · obtain ⟨k, bound, log⟩ := read
      exact Or.inr ⟨k, by omega, log⟩

end Page.Reads

namespace Player.Plays

variable {recording : Recording} {player : Player} {watch : Stopwatch} {now later : ℚ}

theorem wait (plays : player.Plays recording watch now) (order : now ≤ later)
    : player.Plays recording watch later :=
  { plays with
    sound := plays.sound.wait order
    started := plays.started.mono plays.sound.nonneg order (le_refl _)
    due := plays.due.mono (add_le_add (watch.played_mono order) (watch.slack_mono order)) }

/-- A selection begins with the first frame, which is due at once. -/
theorem select (real : recording.Real) {clip : Clip} (known : clip ∈ recording.clips)
    (player : Player) (nonneg : 0 ≤ now)
    : (player.select clip now).Plays recording (Stopwatch.start now) now := by
  obtain ⟨guests, recorded⟩ := real clip known
  obtain ⟨state, rest, frames⟩ := recorded.first_time
  have sound : (Stopwatch.start now).Sound now := .start nonneg
  refine ⟨known, ?_, sound, ?_, rfl, ?_, Nat.succ_pos _⟩
  · simp [Player.select, frames]
  · change Near 53 now 0 now (now + 0)
    rw [add_zero]
    exact .refl nonneg now
  · intro i bound frame here
    have zero : i = 0 := Nat.le_zero.mp bound
    subst zero
    simp only [Player.select, frames, List.getElem?_cons_zero, Option.some.injEq] at here
    subst here
    have slack : 0 ≤ (Stopwatch.start now).slack now := mul_nonneg nonneg (drift_nonneg ..)
    have played := sound.played
    simp only [Int.cast_zero]
    linarith

/-- The end of a pause moves the start time, with two roundings. -/
theorem resumed {since : ℚ} (sound : watch.Sound now) (known : watch.pausedSince = some since)
    (started : Near 53 now (2 * watch.pauses) player.started (watch.begun + watch.paused))
    : Near 53 now (2 * (watch.pauses + 1)) (double (player.started + double (now - since)))
        (watch.begun + (watch.paused + (now - since))) := by
  have begun := sound.begun
  have paused := sound.paused
  have played := sound.played
  have late := sound.since since known
  rw [Stopwatch.played, known, Option.getD_some] at played
  have length : Near 53 now (0 + 1) (double (now - since)) (now - since) := by
    refine Near.round (.refl sound.nonneg _) ?_
    rw [abs_of_nonneg (by linarith)]
    linarith
  have sum := started.add length sound.nonneg
  rw [add_assoc] at sum
  refine sum.round ?_
  rw [abs_of_nonneg (by linarith)]
  linarith

theorem toggle (plays : player.Plays recording watch now)
    : (player.toggle now).Plays recording (watch.toggle now) now := by
  obtain ⟨clip, inside, sound, started, stopped, due, begun⟩ := plays
  have slack : watch.slack now ≤ (watch.toggle now).slack now := by
    refine mul_le_mul_of_nonneg_left (drift_mono _ ?_) sound.nonneg
    unfold Stopwatch.toggle
    split
    · exact le_refl _
    · simp only
      omega
  have due' : DueUpTo player.clip.frames
      ((watch.toggle now).played now + (watch.toggle now).slack now) player.frame := by
    rw [watch.toggle_played]
    exact due.mono (add_le_add_right slack _)
  have sound' := sound.toggle
  unfold Player.toggle
  split
  · next paused =>
      rw [if_pos paused] at stopped
      refine ⟨clip, inside, sound', ?_, ?_, due', begun⟩
      · simp only [Stopwatch.toggle, stopped]
        exact resumed sound stopped started
      · simp [Stopwatch.toggle, stopped]
  · next playing =>
      rw [if_neg playing] at stopped
      refine ⟨clip, inside, sound', ?_, ?_, due', begun⟩
      · simp only [Stopwatch.toggle, stopped]
        exact started
      · simp [Stopwatch.toggle, stopped]

/-- The time that the loop of `read` compares with is the time played, up to the slack. -/
theorem elapsed (plays : player.Plays recording watch now) (playing : ¬player.stopped)
    : |double (now - player.started) - watch.played now| ≤ watch.slack now := by
  have sound := plays.sound
  have begun := sound.begun
  have paused := sound.paused
  have played := sound.played
  have running := plays.stopped
  rw [if_neg playing] at running
  have same : watch.played now = now - (watch.begun + watch.paused) := by
    rw [Stopwatch.played, running, Option.getD_none]
    ring
  rw [same] at played ⊢
  refine (plays.started.sub_left now).round ?_
  rw [abs_of_nonneg played]
  linarith

/-- The loop of `read` stops at the frame that is the last due one, up to the slack. -/
theorem lastDue (plays : player.Plays recording watch now) (playing : ¬player.stopped)
    : LastDue player.clip.frames (watch.played now) (watch.slack now)
        (advanceFrame player.clip.frames (double (now - player.started)) player.clip.frames.length
          player.frame) := by
  obtain ⟨low, high⟩ := abs_le.mp (plays.elapsed playing)
  obtain ⟨_, inside, passed, stops⟩ :=
    @advanceFrame_spec _ (double (now - player.started)) _ _ plays.inside (Nat.le_add_left _ _)
  refine ⟨inside, fun i bound frame here => ?_, fun j inside early => ?_⟩
  · rcases Nat.lt_or_ge player.frame i with beyond | before
    · exact (passed i bound beyond frame here).trans (by linarith)
    · exact plays.due i before frame here
  · -- the frame after the last one was not due
    by_contra beyond
    have next := List.getElem?_eq_getElem (Nat.lt_of_le_of_lt (Nat.lt_of_not_le beyond) inside)
    have late := stops _ next
    have soon := early _ (Nat.lt_of_not_le beyond) _ next
    linarith

theorem advance (plays : player.Plays recording watch now)
    : (player.advance now).Plays recording watch now
      ∧ player.frame ≤ (player.advance now).frame
      ∧ (player.stopped → (player.advance now).frame = player.frame)
      ∧ (¬player.stopped
        → LastDue player.clip.frames (watch.played now) (watch.slack now)
            (player.advance now).frame) := by
  unfold Player.advance
  split
  · next paused => exact ⟨plays, Nat.le_refl _, fun _ => rfl, fun playing => absurd paused playing⟩
  · next playing =>
      have lastDue := plays.lastDue playing
      obtain ⟨order, _⟩ :=
        @advanceFrame_spec _ (double (now - player.started)) _ _ plays.inside (Nat.le_add_left _ _)
      exact ⟨{ plays with inside := lastDue.inside, due := lastDue.due }, order,
        fun paused => absurd paused playing, fun _ => lastDue⟩

/-- The reply is that of the recorded guest, with the epoch of the selection. -/
theorem reply (plays : player.Plays recording watch now) {guests : List Guest}
    (recorded : player.clip.Recorded guests) (after : Nat)
    : ∃ guest time position reply,
        guests[player.frame]? = some guest
        ∧ player.clip.frames[player.frame]? = some ⟨time, guest.delta position⟩
        ∧ player.reply after = some reply
        ∧ reply.Tells guest after
        ∧ reply.epoch = replayEpoch player.epoch
        ∧ reply.console = guest.console
        ∧ reply.processes = guest.processes.values
        ∧ reply.maps = guest.maps
        ∧ reply.data = guest.data
        ∧ reply.ticks = guest.ticks := by
  have inside := plays.inside
  rw [recorded.deltas.length_eq] at inside
  obtain ⟨guest, here⟩ : ∃ guest, guests[player.frame]? = some guest :=
    ⟨_, List.getElem?_eq_getElem inside⟩
  obtain ⟨time, position, frame⟩ := recorded.deltas.frame here
  refine ⟨guest, time, position, player.frameReply after ⟨time, guest.delta position⟩, here, frame,
    ?_, ⟨?_, rfl⟩, rfl, rfl, rfl, rfl, rfl, rfl⟩
  · rw [Player.reply, frame, Option.map_some]
  · simp only [Player.frameReply, recorded.retained here]
    rfl

/-- The log of a frame that was read is that of the recorded guest, so the guest of the present
frame has moved on from it.
-/
theorem behind (plays : player.Plays recording watch now) {guests : List Guest}
    (recorded : player.clip.Recorded guests) {page : Page} (reads : page.Reads player)
    (same : page.epoch = replayEpoch player.epoch) {guest : Guest}
    (here : guests[player.frame]? = some guest)
    : page.Behind guest := by
  have logged := recorded.chain.1 guest (List.mem_of_getElem? here)
  rcases reads.current same with empty | read
  · exact logged.behind empty
  · obtain ⟨k, bound, log⟩ := read
    have inside : k < guests.length := by
      have frame := plays.inside
      rw [recorded.deltas.length_eq] at frame
      omega
    obtain ⟨earlier, there⟩ : ∃ earlier, guests[k]? = some earlier :=
      ⟨_, List.getElem?_eq_getElem inside⟩
    obtain ⟨time, position, frame⟩ := recorded.deltas.frame there
    have same : page.log = earlier.log := by
      rw [log, ClipFrame.log, recorded.retained there, frame]
      rfl
    unfold Page.Behind
    rw [same]
    exact recorded.follows bound there here

end Player.Plays

/-- What a read of a playing or paused clip shows: the guest of the frame that it reads. -/
structure Viewer.Polled (recording : Recording) (viewer : Viewer) (watch : Stopwatch) (now : ℚ)
    (polled : Viewer)
    : Prop where
  plays : polled.player.Plays recording watch now
  reads : polled.page.Reads polled.player
  selection
    : polled.player.epoch = viewer.player.epoch ∧ polled.player.clip = viewer.player.clip
  stopped : polled.player.stopped = viewer.player.stopped
  present : polled.player.loaded = viewer.player.loaded
  idle : polled.polling = .idle
  others : polled.fetching = viewer.fetching ∧ polled.loaded = viewer.loaded
  named : polled.page.epoch = replayEpoch polled.player.epoch
  order : viewer.player.frame ≤ polled.player.frame
  paused : viewer.player.stopped → polled.player.frame = viewer.player.frame
  playing
    : ¬viewer.player.stopped
      → LastDue viewer.player.clip.frames (watch.played now) (watch.slack now) polled.player.frame
  shown
    : ∀ guests,
        viewer.player.clip.Recorded guests
        → ∃ guest time position reply,
            guests[polled.player.frame]? = some guest
            ∧ viewer.player.clip.frames[polled.player.frame]? = some ⟨time, guest.delta position⟩
            ∧ polled.page.state = some reply
            ∧ (viewer.page.epoch = [] ∨ viewer.page.epoch = polled.page.epoch
              → polled.page.events = guest.events)
            ∧ reply.console = guest.console
            ∧ reply.processes = guest.processes.values
            ∧ reply.maps = guest.maps
            ∧ reply.data = guest.data
            ∧ reply.ticks = guest.ticks

theorem Page.receive_state (page : Page) (reply : Reply)
    : (page.receive reply).state = some reply := by
  unfold Page.receive
  dsimp only
  split_ifs <;> rfl

theorem Player.Plays.read {recording : Recording} {player : Player} {watch : Stopwatch} {now : ℚ}
    (plays : player.Plays recording watch now) (real : recording.Real) {page : Page}
    (reads : page.Reads player) (polling : Polling) (fetching loaded : List Control)
    : Viewer.Polled recording ⟨player, page, polling, fetching, loaded⟩ watch now
        (Viewer.read ⟨player, page, polling, fetching, loaded⟩ page.cursor now) := by
  obtain ⟨plays', order, paused, playing⟩ := plays.advance
  have selection : (player.advance now).epoch = player.epoch
      ∧ (player.advance now).clip = player.clip
      ∧ (player.advance now).stopped = player.stopped
      ∧ (player.advance now).loaded = player.loaded := by
    unfold Player.advance
    split <;> exact ⟨rfl, rfl, rfl, rfl⟩
  obtain ⟨epoch, clip, stopped, present⟩ := selection
  have reads' := reads.moved epoch clip order
  -- the reply does not depend on which recording history is looked at
  have answer {guests : List Guest} (recorded : (player.advance now).clip.Recorded guests)
      : ∃ guest time position reply,
          guests[(player.advance now).frame]? = some guest
          ∧ (player.advance now).clip.frames[(player.advance now).frame]?
            = some ⟨time, guest.delta position⟩
          ∧ (player.advance now).reply page.cursor = some reply
          ∧ reply.epoch = replayEpoch (player.advance now).epoch
          ∧ (page.epoch = [] ∨ page.epoch = reply.epoch → (page.receive reply).log = guest.log)
          ∧ (page.epoch ≠ [] → page.epoch ≠ reply.epoch
            → (page.receive reply).log = BoundedLog.empty)
          ∧ (page.receive reply).epoch = reply.epoch
          ∧ reply.console = guest.console
          ∧ reply.processes = guest.processes.values
          ∧ reply.maps = guest.maps
          ∧ reply.data = guest.data
          ∧ reply.ticks = guest.ticks := by
    obtain ⟨guest, time, position, reply, here, frame, made, tells, named, state⟩ :=
      plays'.reply recorded page.cursor
    have logged := recorded.chain.1 guest (List.mem_of_getElem? here)
    obtain ⟨epoch', took, changed⟩ :=
      Page.receive_spec tells logged reads'.initial
        fun same => plays'.behind recorded reads' (same.trans named) here
    exact ⟨guest, time, position, reply, here, frame, made, named, took, changed, epoch', state⟩
  obtain ⟨guests, recorded⟩ := real _ plays'.clip
  obtain ⟨guest, time, position, reply, here, frame, made, named, took, changed, epoch', _⟩ :=
    answer recorded
  have polled : Viewer.read ⟨player, page, polling, fetching, loaded⟩ page.cursor now
      = ⟨player.advance now, page.receive reply, .idle, fetching, loaded⟩ := by
    simp only [Viewer.read, made]
  rw [polled]
  refine ⟨plays', ?_, ⟨epoch, clip⟩, stopped, present, rfl, ⟨rfl, rfl⟩, epoch'.trans named, order,
    paused, playing, ?_⟩
  · refine ⟨?_, fun _ => ⟨_, Nat.le_refl _, epoch'.trans named⟩, fun _ => ?_⟩
    · intro empty
      exact absurd (named.symm.trans (epoch'.symm.trans empty)) (replayEpoch_ne_nil _)
    · by_cases whole : page.epoch = [] ∨ page.epoch = reply.epoch
      · refine Or.inr ⟨_, Nat.le_refl _, (took whole).trans ?_⟩
        rw [ClipFrame.log, recorded.retained here, frame]
        rfl
      · obtain ⟨known, different⟩ := not_or.mp whole
        exact Or.inl (changed known different)
  · intro guests recorded
    rw [← clip] at recorded
    obtain ⟨guest, time, position, reply', here, frame, made', named, took, _, epoch', state⟩ :=
      answer recorded
    cases made.symm.trans made'
    rw [clip] at frame
    refine ⟨guest, time, position, reply, here, frame, Page.receive_state _ _, ?_, state⟩
    intro whole
    have known : page.epoch = [] ∨ page.epoch = reply.epoch := by
      rw [epoch'] at whole
      exact whole
    exact (BoundedLog.mk.inj (took known)).1

namespace Viewer.Shows

variable {recording : Recording} {viewer : Viewer} {watch : Stopwatch} {last now : ℚ}

theorem start (nonneg : 0 ≤ now)
    : (Viewer.start recording).Shows recording (Stopwatch.start now) now where
  nonneg := nonneg
  plays impossible := absurd impossible Bool.false_ne_true
  unloaded _ := ⟨rfl, nofun, rfl⟩
  asked _ := nofun
  reads := ⟨fun _ => rfl, fun impossible => absurd rfl impossible,
    fun same => absurd same.symm (replayEpoch_ne_nil _)⟩

theorem wait (shows : viewer.Shows recording watch last) (order : last ≤ now)
    : viewer.Shows recording watch now :=
  { shows with
    nonneg := shows.nonneg.trans order
    plays := fun present => (shows.plays present).wait order }

/-- A poll that has passed `load`, and so any call that has, finds the recording. -/
theorem present_of_polling (shows : viewer.Shows recording watch now) {after : Nat}
    (asked : viewer.polling = .loaded after)
    : viewer.player.loaded := by
  by_contra absent
  exact (shows.unloaded absent).2.1 after asked

theorem present_of_loaded (shows : viewer.Shows recording watch now) {index : Nat} {control : Control}
    (called : viewer.loaded[index]? = some control)
    : viewer.player.loaded := by
  by_contra absent
  rw [(shows.unloaded absent).2.2] at called
  cases called

/-- A player with the recording, wherever the calls stand. -/
theorem of_plays (shows : viewer.Shows recording watch now) (player : Player) {watch' : Stopwatch}
    (present : player.loaded) (plays : player.Plays recording watch' now)
    (reads : viewer.page.Reads player) {polling : Polling}
    (asked
      : ∀ after,
          polling = .fetching after ∨ polling = .loaded after → after = viewer.page.cursor)
    (fetching loaded : List Control)
    : Viewer.Shows recording ⟨player, viewer.page, polling, fetching, loaded⟩ watch' now where
  nonneg := shows.nonneg
  plays _ := plays
  unloaded absent := absurd present absent
  asked := asked
  reads := reads

/-- The recording arrives. -/
theorem fetched (shows : viewer.Shows recording watch now) (real : recording.Real) {polling : Polling}
    (asked
      : ∀ after,
          polling = .fetching after ∨ polling = .loaded after → after = viewer.page.cursor)
    (fetching loaded : List Control)
    : Viewer.Shows recording
        ⟨viewer.player.fetched recording now, viewer.page, polling, fetching, loaded⟩
        (Stopwatch.start now) now := by
  have first := Player.Plays.select real List.mem_cons_self viewer.player shows.nonneg
  exact shows.of_plays (viewer.player.fetched recording now) rfl { first with }
    (shows.reads.selected (Nat.lt_succ_self _)) asked ..

/-- A call of `post` goes on after `load`. -/
theorem post (shows : viewer.Shows recording watch now) (real : recording.Real)
    (present : viewer.player.loaded) (control : Control) (loaded : List Control)
    : Viewer.Shows recording
        ⟨viewer.player.post recording now control, viewer.page, viewer.polling, viewer.fetching,
          loaded⟩
        (watch.control recording now control) now := by
  have selected {clip : Clip} (known : clip ∈ recording.clips)
      : Viewer.Shows recording
          ⟨viewer.player.select clip now, viewer.page, viewer.polling, viewer.fetching, loaded⟩
          (Stopwatch.start now) now :=
    shows.of_plays (viewer.player.select clip now) present
      (.select real known viewer.player shows.nonneg) (shows.reads.selected (Nat.lt_succ_self _))
      shows.asked ..
  cases control with
  | stop =>
      have same : (viewer.player.toggle now).epoch = viewer.player.epoch
          ∧ (viewer.player.toggle now).clip = viewer.player.clip
          ∧ (viewer.player.toggle now).frame = viewer.player.frame
          ∧ (viewer.player.toggle now).loaded = viewer.player.loaded := by
        unfold Player.toggle
        split <;> exact ⟨rfl, rfl, rfl, rfl⟩
      obtain ⟨epoch, clip, frame, still⟩ := same
      exact shows.of_plays _ (still.trans present) (shows.plays present).toggle
        (shows.reads.moved epoch clip (Nat.le_of_eq frame.symm)) shows.asked ..
  | restart => exact selected List.mem_cons_self
  | input command =>
      simp only [Player.post, Stopwatch.control, Player.input]
      cases found : recording.clips.find? fun clip => clip.command = command with
      | none =>
          have absent : ¬recording.clips.any fun clip => clip.command = command := by
            simpa using found
          rw [if_neg absent]
          exact shows.of_plays _ present (shows.plays present) shows.reads shows.asked ..
      | some clip =>
          have known : recording.clips.any fun clip => clip.command = command :=
            List.any_eq_true.mpr
              ⟨clip, List.mem_of_find?_eq_some found, by simpa using List.find?_some found⟩
          rw [if_pos known]
          exact selected (List.mem_of_find?_eq_some found)

/-- Every event keeps the invariant. -/
theorem step (before : viewer.Shows recording watch last) (real : recording.Real)
    (order : last ≤ now) (event : ViewerEvent)
    : (viewer.step recording now event).Shows recording (watch.after recording viewer now event)
        now := by
  have shows := before.wait order
  cases event with
  | poll =>
      cases polling : viewer.polling with
      | idle =>
          simp only [Viewer.step, polling]
          refine ⟨shows.nonneg, shows.plays, fun absent => ?_, fun after asked => ?_, shows.reads⟩
          · obtain ⟨same, _, none⟩ := shows.unloaded absent
            have unloaded : ¬viewer.player.loaded := absent
            exact ⟨same, fun after => by simp [unloaded], none⟩
          · split_ifs at asked <;> simpa [eq_comm] using asked
      | fetching | loaded =>
          simp only [Viewer.step, polling]
          exact shows
  | pollFetched =>
      cases polling : viewer.polling with
      | fetching after =>
          simp only [Viewer.step, Stopwatch.after, polling]
          refine shows.fetched real (fun after' asked => ?_) ..
          have same : after' = after := by simpa [eq_comm] using asked
          exact shows.asked after' (Or.inl (same ▸ polling))
      | idle | loaded =>
          simp only [Viewer.step, Stopwatch.after, polling]
          exact shows
  | pollFailed =>
      cases polling : viewer.polling with
      | fetching after =>
          simp only [Viewer.step, polling]
          refine ⟨shows.nonneg, shows.plays, fun absent => ?_, fun after => nofun, ?_⟩
          · obtain ⟨same, _, none⟩ := shows.unloaded absent
            exact ⟨same, fun after => nofun, none⟩
          · exact ⟨shows.reads.initial, shows.reads.earlier, shows.reads.current⟩
      | idle | loaded =>
          simp only [Viewer.step, polling]
          exact shows
  | read =>
      cases polling : viewer.polling with
      | loaded after =>
          simp only [Viewer.step, polling]
          have present := shows.present_of_polling polling
          have cursor := shows.asked after (Or.inr polling)
          have polled := (shows.plays present).read real shows.reads viewer.polling viewer.fetching
            viewer.loaded
          rw [← cursor] at polled
          refine ⟨shows.nonneg, fun _ => polled.plays, fun absent => ?_, fun after' asked => ?_,
            polled.reads⟩
          · exact absurd (polled.present.trans present) absent
          · rw [polled.idle] at asked
            simp at asked
      | idle | fetching =>
          simp only [Viewer.step, polling]
          exact shows
  | post control =>
      simp only [Viewer.step]
      split
      · next present => exact shows.of_plays _ present (shows.plays present) shows.reads shows.asked ..
      · next absent =>
          exact ⟨shows.nonneg, shows.plays, shows.unloaded, shows.asked, shows.reads⟩
  | fetched index =>
      cases called : viewer.fetching[index]? with
      | none =>
          simp only [Viewer.step, Stopwatch.after, called]
          exact shows
      | some control =>
          simp only [Viewer.step, Stopwatch.after, called]
          exact shows.fetched real shows.asked ..
  | failed index => exact ⟨shows.nonneg, shows.plays, shows.unloaded, shows.asked, shows.reads⟩
  | run index =>
      cases called : viewer.loaded[index]? with
      | none =>
          simp only [Viewer.step, Stopwatch.after, called]
          exact shows
      | some control =>
          simp only [Viewer.step, Stopwatch.after, called]
          exact shows.post real (shows.present_of_loaded called) control _

end Viewer.Shows

/-- Witness: induction on the schedule. -/
theorem Viewer.Reached.shows {recording : Recording} (real : recording.Real) {viewer : Viewer}
    {watch : Stopwatch} {last : ℚ} (reached : Viewer.Reached recording viewer watch last)
    : viewer.Shows recording watch last := by
  induction reached with
  | start nonneg => exact .start nonneg
  | step event _ order ih => exact ih.step real order event

/-- Only a read changes the frame of a selection, and never while it is paused. -/
theorem Viewer.Shows.frame {recording : Recording} {viewer : Viewer} {watch : Stopwatch}
    {last now : ℚ} (before : viewer.Shows recording watch last) (real : recording.Real)
    (order : last ≤ now) (event : ViewerEvent)
    (same : (viewer.step recording now event).player.epoch = viewer.player.epoch)
    : viewer.player.frame ≤ (viewer.step recording now event).player.frame
      ∧ (viewer.player.stopped
        → (viewer.step recording now event).player.frame = viewer.player.frame) := by
  have shows := before.wait order
  have still {player : Player} (kept : player.frame = viewer.player.frame)
      : viewer.player.frame ≤ player.frame
        ∧ (viewer.player.stopped → player.frame = viewer.player.frame) :=
    ⟨Nat.le_of_eq kept.symm, fun _ => kept⟩
  have newer {P : Prop} (selected : viewer.player.epoch + 1 = viewer.player.epoch) : P :=
    absurd selected (Nat.succ_ne_self _)
  cases event with
  | poll =>
      refine still ?_
      cases polling : viewer.polling <;> simp only [Viewer.step, polling]
  | pollFetched =>
      cases polling : viewer.polling with
      | fetching after =>
          simp only [Viewer.step, polling] at same
          exact newer same
      | idle | loaded => exact still (by simp only [Viewer.step, polling])
  | pollFailed =>
      refine still ?_
      cases polling : viewer.polling <;> simp only [Viewer.step, polling]
  | read =>
      cases polling : viewer.polling with
      | loaded after =>
          simp only [Viewer.step, polling]
          have present := shows.present_of_polling polling
          have polled := (shows.plays present).read real shows.reads viewer.polling viewer.fetching
            viewer.loaded
          rw [← shows.asked after (Or.inr polling)] at polled
          exact ⟨polled.order, polled.paused⟩
      | idle | fetching => exact still (by simp only [Viewer.step, polling])
  | post control =>
      refine still ?_
      simp only [Viewer.step]
      split <;> rfl
  | fetched index =>
      cases called : viewer.fetching[index]? with
      | none => exact still (by simp only [Viewer.step, called])
      | some control =>
          simp only [Viewer.step, called] at same
          exact newer same
  | failed index => exact still rfl
  | run index =>
      cases called : viewer.loaded[index]? with
      | none => exact still (by simp only [Viewer.step, called])
      | some control =>
          cases control with
          | stop =>
              refine still ?_
              simp only [Viewer.step, called, Player.post, Player.toggle]
              split <;> rfl
          | restart =>
              simp only [Viewer.step, called, Player.post] at same
              exact newer same
          | input command =>
              simp only [Viewer.step, called, Player.post, Player.input] at same
              cases found : recording.clips.find? fun clip => clip.command = command with
              | none => exact still (by simp only [Viewer.step, called, Player.post, Player.input, found])
              | some clip =>
                  rw [found] at same
                  exact newer same

end MiniLinux
