import MiniLinux.User.Residents

/-! Programs that follow a script on the laboratory.
Where the calls of a program are known, and the keys that it gets wait at the receiver, there is a
run in which it makes these calls and nobody else runs.
-/

namespace MiniLinux.User

open Foundation Interaction

-----------------------------------------------------------------------------------------
-- Cues
-----------------------------------------------------------------------------------------

/-- A line of a script: a call with whatever reply, or a poll that gets a key. -/
inductive Cue where
  | tells (request : Request)
  | hears (key : Byte)

namespace Cue

/-- The call of a line and the replies that it allows. -/
def line : Cue → Request × (Reply → Prop)
  | .tells request => (request, fun _ => True)
  | .hears key => (.input, fun reply => reply = ⟨1, [key]⟩)

/-- The key that a line takes. -/
def key? : Cue → Option Byte
  | .tells _ => none
  | .hears key => some key

/-- The call is served at once, and takes no other key. -/
def Plain : Cue → Prop
  | .tells request =>
      Syscall.Immediate request.syscall ∧ request.syscall ≠ some .input
  | .hears _ => True

instance : DecidablePred Plain
  | .tells request =>
      inferInstanceAs (Decidable
        ((request.syscall ≠ some .spawn ∧ request.syscall ≠ some .wait ∧ request.syscall ≠ some .exit)
          ∧ request.syscall ≠ some .input))
  | .hears _ => .isTrue trivial

end Cue

abbrev lines (script : List Cue) : List (Request × (Reply → Prop)) := script.map Cue.line

/-- What is typed and echoed for a text. -/
def typingScript (text : List Byte) : List Cue := text.flatMap fun c => [.hears c, .tells (.write [c])]

-----------------------------------------------------------------------------------------
-- Scripts on the laboratory
-----------------------------------------------------------------------------------------

section Scripts

variable {codes : Program → Option (UserCode PUnit)} {image : List Byte} {info : BootInfo}
  {start : Lab} {spawns : Nat} {scene scene' : Scene}

/-- Bytes arrive at the receiver. -/
theorem Scene.ReachedAfter.arrives (reached : Scene.ReachedAfter codes image info start spawns scene)
    (guaranteed : info.Guaranteed) (bound : spawns < 2 ^ 32 - 1) (bytes : List Byte)
    : ∃ scene',
        Scene.ReachedAfter codes image info start spawns scene'
        ∧ scene.Remains scene'
        ∧ scene'.lab.received = scene.lab.received ++ bytes
        ∧ scene'.threads scene.lab.current = scene.threads scene.lab.current := by
  induction bytes using List.reverseRecOn with
  | nil => exact ⟨scene, reached, .refl scene, (List.append_nil _).symm, rfl⟩
  | append_singleton bytes byte ih =>
      obtain ⟨scene₁, reached₁, remains, received, thread⟩ := ih
      let lab' : Lab := { scene₁.lab with received := scene₁.lab.received ++ [byte] }
      have step : scene₁.Step codes image (scene₁.advance lab' none []) :=
        .other (.receive byte) [] (by simp) rfl
      have user := reached₁.lab.reachable.user guaranteed
      have used : (scene₁.lab.tasks scene₁.lab.current).state ≠ .unused := by
        rw [user.ready]
        decide
      have idle := (reached₁.ledger guaranteed bound _ used).running rfl
      refine ⟨_, reached₁.quiet step rfl, remains.trans ⟨rfl, rfl, rfl, fun _ => .refl _⟩, ?_, ?_⟩
      · rw [← List.append_assoc, ← received]
        rfl
      · rw [← thread, ← remains.current]
        refine (if_pos rfl).trans ?_
        refine (congrArg (Thread.resume · _) (scene₁.asking_here none used idle)).trans ?_
        exact Thread.of_idle idle

/-- The code of the running program is at this point. -/
def Scene.At (scene : Scene) (codes : Program → Option (UserCode PUnit)) (rest : UserCode PUnit)
    : Prop :=
  ∀ code ∈ codes scene.lab.taskCurrent.program,
    code.Reaches (scene.threads scene.lab.current).exchanges rest

theorem Scene.At.asks {request : Request} {resume : Reply → UserCode PUnit}
    (here : scene.At codes (.ask request resume))
    : ∀ code ∈ codes scene.lab.taskCurrent.program,
        ∃ resume,
          code.Reaches (scene.threads scene.lab.current).exchanges (.ask request resume) :=
  fun code known => ⟨resume, here code known⟩

/-- The reply takes the code to what follows the call. -/
theorem Scene.At.continues {request : Request} {reply : Reply} {resume : Reply → UserCode PUnit}
    (here : scene.At codes (.ask request resume)) (continues : scene.Continues scene' request reply)
    : scene'.At codes (resume reply) := by
  have same : scene'.lab.taskCurrent.program = scene.lab.taskCurrent.program := by
    have role := (continues.roles scene.lab.current).program
    rw [scene'.lab.userTable_program, scene.lab.userTable_program, ← continues.current] at role
    exact role.trans (congrArg (fun index => (scene.lab.tasks index).program) continues.current)
  intro code known
  rw [same] at known
  rw [continues.current, continues.thread]
  exact (here code known).answered reply

/-- A program whose calls are those of a script makes them. Witness: induction on the script, one
step of the laboratory for each line.
-/
theorem Scene.ReachedAfter.plays {script : List Cue} {program rest : UserCode PUnit}
    {more : List Byte} (plays : program.Plays (lines script) rest)
    (plain : ∀ cue ∈ script, cue.Plain)
    (reached : Scene.ReachedAfter codes image info start spawns scene) (guaranteed : info.Guaranteed)
    (bound : spawns < 2 ^ 32 - 1) (waiting : scene.lab.received = script.filterMap Cue.key? ++ more)
    (here : scene.At codes program)
    : ∃ scene' exchanges,
        Scene.ReachedAfter codes image info start spawns scene'
        ∧ List.Forall₂ Answers (lines script) exchanges
        ∧ scene.Remains scene'
        ∧ scene'.lab.received = more
        ∧ (scene'.threads scene'.lab.current).exchanges
          = (scene.threads scene.lab.current).exchanges ++ exchanges
        ∧ scene'.At codes rest := by
  induction script generalizing program scene with
  | nil =>
      cases plays
      exact ⟨scene, [], reached, .nil, .refl scene, waiting, (List.append_nil _).symm, here⟩
  | cons cue script ih =>
      -- one call, and the rest of the script after it
      have goes {question : Request} {resume : Reply → UserCode PUnit} {scene₁ : Scene}
          {reply : Reply} (reached₁ : Scene.ReachedAfter codes image info start spawns scene₁)
          (continues : scene.Continues scene₁ question reply)
          (here : scene.At codes (.ask question resume))
          (later : (resume reply).Plays (lines script) rest)
          (waiting : scene₁.lab.received = script.filterMap Cue.key? ++ more)
          (answers : Answers cue.line (question, reply))
          : ∃ scene' exchanges,
              Scene.ReachedAfter codes image info start spawns scene'
              ∧ List.Forall₂ Answers (lines (cue :: script)) exchanges
              ∧ scene.Remains scene'
              ∧ scene'.lab.received = more
              ∧ (scene'.threads scene'.lab.current).exchanges
                = (scene.threads scene.lab.current).exchanges ++ exchanges
              ∧ scene'.At codes rest := by
        obtain ⟨scene', exchanges, reached', answered, remains, received, thread, here'⟩ :=
          ih later (fun next member => plain next (List.mem_cons_of_mem _ member)) reached₁ waiting
            (here.continues continues)
        refine ⟨scene', (question, reply) :: exchanges, reached', .cons answers answered,
          continues.toRemains.trans remains, received, ?_, here'⟩
        rw [thread, continues.current, continues.thread, List.append_assoc]
        rfl
      have first := plain cue List.mem_cons_self
      cases cue with
      | tells request =>
          cases plays with
          | ask later =>
              obtain ⟨scene₁, reply, reached₁, continues⟩ :=
                reached.asks guaranteed bound first.1 here.asks
              exact goes reached₁ continues here (later reply trivial)
                ((continues.received first.2).trans waiting) ⟨rfl, trivial⟩
      | hears key =>
          cases plays with
          | ask later =>
              obtain ⟨scene₁, reached₁, continues, received, _⟩ :=
                reached.hears guaranteed bound waiting here.asks
              exact goes reached₁ continues here (later _ rfl) received ⟨rfl, rfl⟩

end Scripts

-----------------------------------------------------------------------------------------
-- A line of the shell
-----------------------------------------------------------------------------------------

/-- The calls of a round of the shell for a line and the command on it. -/
def roundScript (text : List Byte) (commands : List Cue) : List Cue :=
  .tells (.write (textBytes "mini$ "))
    :: (typingScript text ++ [.hears 13, .tells (.write [10])] ++ commands ++ [.tells inspectCall])

section Line

variable {prompt : Prompt} {text more : List Byte} {rounds : Nat}

/-- The shell echoes a character for which there is room. -/
theorem shellPoll_plays (types : prompt.Types text) (fits : prompt.overflow = false) {c : Byte}
    (key : printable c = true) (room : text.length < 95)
    : ∃ prompt' : Prompt,
        prompt'.Types (text ++ [c])
        ∧ prompt'.overflow = false
        ∧ (shellPoll prompt).Plays (lines [.hears c, .tells (.write [c])]) (.done (.inl prompt')) := by
  have other : ∀ c, printable c = true → ¬(c = 13 ∨ c = 10) ∧ ¬(c = 8 ∨ c = 127) := by decide
  obtain ⟨goes, keeps⟩ := other c key
  obtain ⟨line, stored, holds⟩ := types.holds.store (show text.length < 96 by omega) c
  rw [← types.used] at stored
  have space : prompt.used + 1 < 96 := by
    rw [types.used]
    omega
  refine ⟨{ prompt with line, used := prompt.used + 1 }, ⟨holds, ?_, ?_, ?_⟩, fits, ?_⟩
  · rw [List.length_append, ← types.used]
    rfl
  · rw [List.length_append, List.length_singleton]
    omega
  · intro other member
    rcases List.mem_append.mp member with old | new
    · exact types.plain other old
    · exact List.mem_singleton.mp new ▸ key
  · have echoes : shellKey prompt c
        = .ask (.write [c]) fun _ => .done (.inl { prompt with line, used := prompt.used + 1 }) := by
      rw [shellKey, if_neg goes, if_neg keeps, if_pos key, if_pos ⟨space, fits⟩, stored]
      simp
    refine .ask fun reply heard => ?_
    obtain rfl := heard
    change (shellKey prompt c).Plays _ _
    rw [echoes]
    exact .ask fun _ _ => .refl _

/-- A line can be typed up to Enter. Witness: induction on the characters, each takes one round of
the loop.
-/
theorem typing_plays (types : prompt.Types text) (fits : prompt.overflow = false)
    (plain : ∀ c ∈ more, printable c = true) (short : text.length + more.length ≤ 95)
    (enough : more.length < rounds)
    : ∃ prompt' : Prompt,
        prompt'.Types (text ++ more)
        ∧ prompt'.overflow = false
        ∧ (iterate shellPoll rounds prompt).Plays
            (lines (typingScript more ++ [.hears 13, .tells (.write [10])])) (.done prompt') := by
  induction more generalizing prompt text rounds with
  | nil =>
      obtain ⟨rounds, rfl⟩ := Nat.exists_eq_succ_of_ne_zero (Nat.ne_of_gt enough)
      refine ⟨prompt, by rwa [List.append_nil], fits, ?_⟩
      have enters : shellKey prompt 13 = .ask (.write [10]) fun _ => .done (.inr prompt) := by
        simp [shellKey]
      have polls : (shellPoll prompt).Plays (lines [.hears 13, .tells (.write [10])])
          (.done (.inr prompt)) := by
        refine .ask fun reply heard => ?_
        obtain rfl := heard
        change (shellKey prompt 13).Plays _ _
        rw [enters]
        exact .ask fun _ _ => .refl _
      exact polls.bind _
  | cons c more ih =>
      rw [List.length_cons] at short enough
      obtain ⟨rounds, rfl⟩ := Nat.exists_eq_succ_of_ne_zero (show rounds ≠ 0 by omega)
      obtain ⟨middle, here, fits', polls⟩ :=
        shellPoll_plays types fits (plain c List.mem_cons_self) (by omega)
      obtain ⟨prompt', there, fits'', later⟩ :=
        @ih middle (text ++ [c]) rounds here fits'
          (fun other member => plain other (List.mem_cons_of_mem _ member))
          (by rw [List.length_append, List.length_singleton]; omega) (by omega)
      refine ⟨prompt', by rwa [List.append_assoc] at there, fits'', ?_⟩
      exact (polls.bind _).trans later

/-- A round of the shell for a line that fits: it is echoed, and its command runs. -/
theorem shellRound_plays {commands : List Cue} {left : List Byte} (line : Buffer 96)
    (plain : ∀ c ∈ text, printable c = true) (short : text.length ≤ 95)
    (enough : text.length < rounds)
    (runs : (command rounds text).Plays (lines commands) (.done left))
    : ∃ line' : Buffer 96,
        (shellRound rounds line).Plays (lines (roundScript text commands))
          (.done (.inl line')) := by
  have message : print "mini$ " = .ask (.write (textBytes "mini$ ")) fun _ => .done ⟨⟩ :=
    print_short (by decide) (by decide)
  obtain ⟨prompt, types, fits, typing⟩ :=
    @typing_plays _ [] text rounds (Prompt.Shows.start line).types rfl plain
      (by rwa [List.length_nil, Nat.zero_add]) enough
  obtain ⟨line', enters⟩ := shellEnter_eq types
  have obeys : (shellEnter rounds prompt).Plays (lines (commands ++ [.tells inspectCall]))
      (.done (line'.receive left)) := by
    rw [enters rounds, fits, lines, List.map_append]
    exact (runs.bind _).trans (.ask fun _ _ => .refl _)
  refine ⟨line'.receive left, ?_⟩
  unfold shellRound shellPrompt
  rw [message]
  refine .ask fun _ _ => ?_
  let goesOn (prompt : Prompt) : UserCode (Buffer 96 ⊕ PUnit) :=
    shellEnter rounds prompt >>= fun line => pure (.inl line)
  have entered : (goesOn prompt).Plays (lines (commands ++ [.tells inspectCall]))
      (.done (.inl (line'.receive left))) :=
    obeys.bind _
  have whole := (typing.bind goesOn).trans entered
  rw [lines, lines, ← List.map_append, ← List.append_assoc] at whole
  exact whole

/-- A round starts with the prompt, and then polls. -/
theorem shellTypes_opens (rounds : Nat) (line : Buffer 96)
    : ∃ resume,
        (shellTypes (rounds + 1) line).Plays (lines [.tells (.write (textBytes "mini$ "))])
          (.ask .input resume) := by
  unfold shellTypes shellPrompt
  rw [print_short (by decide) (by decide)]
  exact ⟨_, .ask fun _ _ => .refl _⟩

/-- The round asks with its line. -/
theorem shellRound_opens {rounds : Nat} {line : Buffer 96} {script : List (Request × (Reply → Prop))}
    {resume : Reply → UserCode Prompt}
    (opens : (shellTypes rounds line).Plays script (.ask .input resume))
    : ∃ resume', (shellRound rounds line).Plays script (.ask .input resume') := by
  rw [shellRound_parts]
  exact ⟨_, opens.bind _⟩

end Line

/-- The keys that a script takes are those that are typed in it. -/
theorem keys_of_answers {script : List Cue} {exchanges : List (Request × Reply)}
    (plain : ∀ cue ∈ script, cue.Plain) (answered : List.Forall₂ Answers (lines script) exchanges)
    : keys exchanges = script.filterMap Cue.key? := by
  induction script generalizing exchanges with
  | nil =>
      cases answered
      rfl
  | cons cue script ih =>
      cases answered with
      | cons first others =>
          obtain ⟨same, allows⟩ := first
          have later := ih (fun next member => plain next (List.mem_cons_of_mem _ member)) others
          have here := plain cue List.mem_cons_self
          rw [keys_cons, later]
          cases cue with
          | tells request =>
              have other : ¬(request = .input) := by
                rintro rfl
                exact here.2 rfl
              rw [if_neg fun both => other (same.symm.trans both.1)]
              rfl
          | hears key =>
              rw [if_pos ⟨same, congrArg Reply.result allows⟩, show _ = _ from allows]
              rfl

end MiniLinux.User
