import Mathlib
import WebrtcDatachannels.Adapter.Attempt
import WebrtcDatachannels.Lib.Decimal
import WebrtcDatachannels.Lib.Lines

/-!
# One peer process

How an adapter runs a guest instance in a process of its own: the command line that
`PeerCommand::argv` gives it (`conformance/adapters/common/src/peer_command.rs`), what the driver
component makes of it (`conformance/adapters/wasip3/driver/src/lib.rs`), and the line of its output
that tells the outcome (`parse_result_line` of `conformance/adapters/common/src/lib.rs`).
-/

namespace WebrtcDatachannels.Adapter

open Lines (trim)

/-! ## Numbers and roles -/

/-- Source: `u32::from_str`. -/
def parseU32 (s : String) : Option Nat := Decimal.parse (2 ^ 32) s

/-- The name of a role on the command line. Source: the `match` in `parse_args`. -/
def Role.name : Role → String
  | .offerer => "offerer"
  | .answerer => "answerer"
  | .both => "both"

/-- Source: the `match` in `parse_args`. -/
def Role.parse (s : String) : Option Role :=
  match s with
  | "offerer" => some .offerer
  | "answerer" => some .answerer
  | "both" => some .both
  | _ => none

theorem Role.parse_eq_some {s : String} {r : Role} : Role.parse s = some r ↔ s = r.name := by
  constructor
  · intro h
    unfold Role.parse at h
    split at h <;> cases h <;> rfl
  · rintro rfl
    cases r <;> rfl

/-! ## The driver's arguments -/

/-- The flags of the driver component. -/
inductive Flag where
  | test
  | role
  | server
  | room
  | messageCount
  | messageSize
  | noTrickle
deriving DecidableEq, Repr

/-- What a flag is called. -/
def Flag.name : Flag → String
  | .test => "--test"
  | .role => "--role"
  | .server => "--server"
  | .room => "--room"
  | .messageCount => "--message-count"
  | .messageSize => "--message-size"
  | .noTrickle => "--no-trickle"

/-- The flag of an argument. -/
def Flag.parse (s : String) : Option Flag :=
  match s with
  | "--test" => some .test
  | "--role" => some .role
  | "--server" => some .server
  | "--room" => some .room
  | "--message-count" => some .messageCount
  | "--message-size" => some .messageSize
  | "--no-trickle" => some .noTrickle
  | _ => none

/-- Why arguments are rejected. -/
inductive UsageError where
  | missingValue (flag : Flag)
  | unknownRole (value : String)
  | badNumber (flag : Flag) (value : String)
  | unknownFlag (argument : String)
  | missing (flag : Flag)
deriving DecidableEq, Repr

/-- What has been read of the arguments. Source: the variables of `parse_args`. -/
structure Args where
  testId : Option String := none
  role : Option Role := none
  server : Option String := none
  room : Option String := none
  messageCount : Nat := 4
  messageSize : Nat := 256
  trickle : Bool := true

/-- A flag with its value, the empty one for `--no-trickle`. Source: the `match` in `parse_args`. -/
def Args.set (p : Args) (flag : Flag) (value : String) : Except UsageError Args :=
  match flag with
  | .test => .ok { p with testId := some value }
  | .role =>
    match Role.parse value with
    | some r => .ok { p with role := some r }
    | none => .error (.unknownRole value)
  | .server => .ok { p with server := some value }
  | .room => .ok { p with room := some value }
  | .messageCount =>
    match parseU32 value with
    | some n => .ok { p with messageCount := n }
    | none => .error (.badNumber .messageCount value)
  | .messageSize =>
    match parseU32 value with
    | some n => .ok { p with messageSize := n }
    | none => .error (.badNumber .messageSize value)
  | .noTrickle => .ok { p with trickle := false }

/-- The loop of `parse_args`. -/
def Args.read (p : Args) : List String → Except UsageError Args
  | [] => .ok p
  | argument :: rest =>
    match Flag.parse argument with
    | none => .error (.unknownFlag argument)
    | some .noTrickle => Args.read { p with trickle := false } rest
    | some flag =>
      match rest with
      | [] => .error (.missingValue flag)
      | value :: rest =>
        match p.set flag value with
        | .error e => .error e
        | .ok p => Args.read p rest

/-- The test and the configuration that were read. Source: the end of `parse_args`. -/
def Args.config (p : Args) : Except UsageError (String × TestConfig) :=
  match p.testId with
  | none => .error (.missing .test)
  | some testId =>
    match p.role with
    | none => .error (.missing .role)
    | some role =>
      match p.server with
      | none => .error (.missing .server)
      | some server =>
        match p.room with
        | none => .error (.missing .room)
        | some room =>
          .ok (testId,
            { role := role, signalingServer := server, room := room,
              messageCount := p.messageCount, messageSize := p.messageSize, trickle := p.trickle })

/-- Source: `parse_args`. -/
def parseArgs (args : List String) : Except UsageError (String × TestConfig) :=
  match Args.read {} args with
  | .error e => .error e
  | .ok p => p.config

/-! ## What the driver accepts -/

/-- A flag with its value as arguments. -/
def given (g : Flag × String) : List String :=
  if g.1 = .noTrickle then [g.1.name] else [g.1.name, g.2]

/-- The value that a flag is given last. -/
def lastOf (gs : List (Flag × String)) (flag : Flag) : Option String :=
  ((gs.filter fun g => g.1 = flag).getLast?).map Prod.snd

/-- The value of a flag can be read. -/
def Flag.Takes (flag : Flag) (value : String) : Prop :=
  match flag with
  | .role => ∃ r, Role.parse value = some r
  | .messageCount | .messageSize => ∃ n, parseU32 value = some n
  | .test | .server | .room | .noTrickle => True

/-- What is read of some flags with their values. -/
def Args.of (gs : List (Flag × String)) : Args :=
  { testId := lastOf gs .test
    role := (lastOf gs .role).bind Role.parse
    server := lastOf gs .server
    room := lastOf gs .room
    messageCount := ((lastOf gs .messageCount).bind parseU32).getD 4
    messageSize := ((lastOf gs .messageSize).bind parseU32).getD 256
    trickle := (lastOf gs .noTrickle).isNone }

section
variable {p p' : Args} {args : List String} {gs : List (Flag × String)}

theorem Flag.parse_eq_some {s : String} {flag : Flag} :
    Flag.parse s = some flag ↔ s = flag.name := by
  constructor
  · intro h
    unfold Flag.parse at h
    split at h <;> cases h <;> rfl
  · rintro rfl
    cases flag <;> rfl

theorem lastOf_concat (gs : List (Flag × String)) (flag flag' : Flag) (value : String) :
    lastOf (gs ++ [(flag, value)]) flag' =
      if flag = flag' then some value else lastOf gs flag' := by
  unfold lastOf
  by_cases h : flag = flag' <;> simp [h]

/-- One more flag. -/
theorem set_of (gs : List (Flag × String)) (flag : Flag) (value : String) :
    (Args.of gs).set flag value = .ok p' ↔
      flag.Takes value ∧ p' = Args.of (gs ++ [(flag, value)]) := by
  cases flag with
  | test | server | room | noTrickle =>
    simp [Args.set, Flag.Takes, Args.of, lastOf_concat, eq_comm]
  | role =>
    cases h : Role.parse value <;> simp [Args.set, Flag.Takes, Args.of, lastOf_concat, h, eq_comm]
  | messageCount | messageSize =>
    cases h : parseU32 value <;> simp [Args.set, Flag.Takes, Args.of, lastOf_concat, h, eq_comm]

/-- The flags that are set one after another. -/
theorem foldlM_set (gs : List (Flag × String)) :
    gs.foldlM (fun p g => p.set g.1 g.2) ({} : Args) = .ok p ↔
      (∀ g ∈ gs, g.1.Takes g.2) ∧ p = Args.of gs := by
  induction gs using List.reverseRecOn generalizing p with
  | nil => simp [pure, Except.pure, Args.of, lastOf, eq_comm]
  | append_singleton gs g ih =>
    rw [List.foldlM_append]
    constructor
    · intro h
      cases hgs : gs.foldlM (fun p g => p.set g.1 g.2) ({} : Args) with
      | error e => rw [hgs] at h; cases h
      | ok q =>
        obtain ⟨hall, rfl⟩ := ih.1 hgs
        rw [hgs] at h
        have hset : (Args.of gs).set g.1 g.2 = .ok p := by
          cases hs : (Args.of gs).set g.1 g.2 with
          | error e => simp [bind, Except.bind, hs] at h
          | ok q => simpa [bind, Except.bind, hs, pure, Except.pure] using h
        obtain ⟨htakes, rfl⟩ := (set_of gs g.1 g.2).1 hset
        refine ⟨?_, rfl⟩
        intro g' hg'
        rcases List.mem_append.1 hg' with hg' | hg'
        · exact hall g' hg'
        · rw [List.mem_singleton.1 hg']
          exact htakes
    · rintro ⟨hall, rfl⟩
      have hgs := (ih (p := Args.of gs)).2 ⟨fun g' hg' => hall g' (List.mem_append_left _ hg'), rfl⟩
      have hset : (Args.of gs).set g.1 g.2 = .ok (Args.of (gs ++ [g])) :=
        (set_of gs g.1 g.2).2 ⟨hall g (by simp), rfl⟩
      rw [hgs]
      simp [bind, Except.bind, hset, pure, Except.pure]

/-- The loop takes a flag with its value. -/
theorem read_given (g : Flag × String) (rest : List String) :
    p.read (given g ++ rest) = .ok p' ↔ ∃ q, p.set g.1 g.2 = .ok q ∧ q.read rest = .ok p' := by
  obtain ⟨flag, value⟩ := g
  have hparse : Flag.parse flag.name = some flag := Flag.parse_eq_some.2 rfl
  by_cases hflag : flag = .noTrickle
  · subst hflag
    simp [given, Args.read, hparse, Args.set]
  · have hgiven : given (flag, value) ++ rest = flag.name :: value :: rest := by
      simp [given, hflag]
    rw [hgiven, Args.read.eq_def]
    simp only [hparse]
    cases p.set flag value <;> simp

/-- The loop reads flags with their values, and nothing else. -/
theorem read_eq_ok : p.read args = .ok p' ↔ ∃ gs : List (Flag × String),
    args = gs.flatMap given ∧ gs.foldlM (fun p g => p.set g.1 g.2) p = .ok p' := by
  constructor
  · fun_induction Args.read p args with
    | case1 p => exact fun h => ⟨[], rfl, h⟩
    | case2 => exact fun h => by cases h
    | case3 p argument rest hparse ih =>
      intro h
      obtain ⟨gs, rfl, hgs⟩ := ih h
      refine ⟨(.noTrickle, "") :: gs, ?_, hgs⟩
      rw [Flag.parse_eq_some.1 hparse]
      rfl
    | case4 => exact fun h => by cases h
    | case5 => exact fun h => by cases h
    | case6 p argument flag hno hparse value rest q hset ih =>
      intro h
      obtain ⟨gs, rfl, hgs⟩ := ih h
      refine ⟨(flag, value) :: gs, ?_, ?_⟩
      · have hflag : flag ≠ .noTrickle := hno
        rw [Flag.parse_eq_some.1 hparse, List.flatMap_cons]
        simp [given, hflag]
      · rw [List.foldlM_cons, hset]
        exact hgs
  · rintro ⟨gs, rfl, hgs⟩
    induction gs generalizing p with
    | nil => exact hgs
    | cons g gs ih =>
      rw [List.flatMap_cons, read_given]
      rw [List.foldlM_cons] at hgs
      cases hset : p.set g.1 g.2 with
      | error e => rw [hset] at hgs; cases hgs
      | ok q =>
        rw [hset] at hgs
        exact ⟨q, rfl, ih hgs⟩

theorem config_eq_ok {testId : String} {c : TestConfig} : p.config = .ok (testId, c) ↔
    p.testId = some testId ∧ p.role = some c.role ∧ p.server = some c.signalingServer ∧
      p.room = some c.room ∧ p.messageCount = c.messageCount ∧ p.messageSize = c.messageSize ∧
      p.trickle = c.trickle := by
  obtain ⟨t, r, s, m, n, k, b⟩ := p
  obtain ⟨r', s', m', n', k', b'⟩ := c
  cases t <;> cases r <;> cases s <;> cases m <;> simp [Args.config]

/-- **What the driver accepts.** `parse_args` takes exactly the sequences of flags with their
values, each value one that its flag takes, in which a test, a role, a server and a room are given;
of a flag that is given more than once the last value counts, the number of messages is 4 and their
size 256 unless they are given, and candidates trickle unless `--no-trickle` is given. -/
theorem parse_args_eq_ok {testId : String} {c : TestConfig} :
    parseArgs args = .ok (testId, c) ↔ ∃ gs : List (Flag × String),
      args = gs.flatMap given ∧ (∀ g ∈ gs, g.1.Takes g.2) ∧
      lastOf gs .test = some testId ∧ lastOf gs .role = some c.role.name ∧
      lastOf gs .server = some c.signalingServer ∧ lastOf gs .room = some c.room ∧
      ((lastOf gs .messageCount).bind parseU32).getD 4 = c.messageCount ∧
      ((lastOf gs .messageSize).bind parseU32).getD 256 = c.messageSize ∧
      (lastOf gs .noTrickle).isNone = c.trickle := by
  have hrole : ∀ gs : List (Flag × String),
      (lastOf gs .role).bind Role.parse = some c.role ↔ lastOf gs .role = some c.role.name := by
    intro gs
    simp only [Option.bind_eq_some_iff, Role.parse_eq_some, exists_eq_right]
  constructor
  · intro h
    unfold parseArgs at h
    split at h
    · cases h
    · next p hp =>
      obtain ⟨gs, rfl, hgs⟩ := read_eq_ok.1 hp
      obtain ⟨htakes, rfl⟩ := (foldlM_set gs).1 hgs
      obtain ⟨ht, hr, hrest⟩ := config_eq_ok.1 h
      exact ⟨gs, rfl, htakes, ht, (hrole gs).1 hr, hrest⟩
  · rintro ⟨gs, rfl, htakes, ht, hr, hrest⟩
    have hread := read_eq_ok.2 ⟨gs, rfl, (foldlM_set gs).2 ⟨htakes, rfl⟩⟩
    unfold parseArgs
    rw [hread]
    exact config_eq_ok.2 ⟨ht, (hrole gs).2 hr, hrest⟩

end

/-! ## The command line -/

/-- STUN and TURN parameters of a peer. Source: `PeerIce`. -/
structure PeerIce where
  serverUrl : Option String
  username : String
  credential : String
  relayOnly : Bool

/-- Source: `PeerIce::is_default`. -/
def PeerIce.isDefault (ice : PeerIce) : Bool := ice.serverUrl.isNone && !ice.relayOnly

/-- The parameters of one peer invocation. Source: `PeerRun`. -/
structure PeerRun where
  testId : String
  role : String
  signalingUrl : String
  room : String
  count : Nat
  size : Nat
  bindAddr : String
  ice : Option PeerIce
  disableMdns : Bool

/-- How a peer process is invoked. Source: `PeerCommand`. -/
inductive PeerCommand where
  | wasmtime (peerBin guest : String)
  | wasip3Guest (wasmtimeBin component : String)

/-- Source: `shared_peer_args` in `PeerCommand::argv`. -/
def PeerRun.shared (run : PeerRun) : List String :=
  ["--test", run.testId, "--role", run.role, "--server", run.signalingUrl, "--room", run.room,
    "--message-count", toString run.count, "--message-size", toString run.size]

/-- What `wasmtime run` is given in front of the component. Source: `PeerCommand::argv`. -/
def launcher (wasmtimeBin bindAddr : String) : List String :=
  [wasmtimeBin, "run", "-W", "component-model-async=y", "-S", "cli", "-S", "p3", "-S", "http",
    "-S", "inherit-network", "--env", "WEBRTC_UDP_BIND_ADDR=" ++ bindAddr]

/-- The arguments for the ICE servers of a native peer. Source: `PeerCommand::argv`. -/
def PeerIce.args (ice : PeerIce) : List String :=
  (match ice.serverUrl with
    | some url => ["--ice-server-url", url, "--ice-username", ice.username, "--ice-credential",
        ice.credential]
    | none => []) ++ if ice.relayOnly then ["--relay-only"] else []

/-- The full argv for one peer process, or none for a `wasip3-guest` peer with ICE parameters.
Source: `PeerCommand::argv`. -/
def PeerCommand.argv (command : PeerCommand) (run : PeerRun) : Option (List String) :=
  match command with
  | .wasmtime peerBin guest =>
    some ([peerBin, "--guest", guest] ++ run.shared ++ ["--bind-addr", run.bindAddr] ++
      (run.ice.map PeerIce.args).getD [] ++ if run.disableMdns then ["--disable-mdns"] else [])
  | .wasip3Guest wasmtimeBin component =>
    if run.ice.any fun ice => !ice.isDefault then none
    else some (launcher wasmtimeBin run.bindAddr ++ component :: run.shared)

/-- The driver reads the arguments of a run back. -/
theorem parseArgs_shared (run : PeerRun) {role : Role} (hrole : run.role = role.name)
    (hcount : run.count < 2 ^ 32) (hsize : run.size < 2 ^ 32) :
    parseArgs run.shared =
      .ok (run.testId, makeConfig role run.signalingUrl run.room run.count run.size) := by
  let gs : List (Flag × String) := [(.test, run.testId), (.role, role.name),
    (.server, run.signalingUrl), (.room, run.room), (.messageCount, toString run.count),
    (.messageSize, toString run.size)]
  have hgiven : run.shared = gs.flatMap given := by
    simp [PeerRun.shared, gs, given, Flag.name, hrole]
  have htakes : ∀ g ∈ gs, g.1.Takes g.2 := by
    simp only [gs, List.forall_mem_cons, List.not_mem_nil, false_implies, implies_true, and_true,
      Flag.Takes, true_and]
    exact ⟨⟨role, Role.parse_eq_some.2 rfl⟩, ⟨_, Decimal.parse_toString hcount⟩,
      ⟨_, Decimal.parse_toString hsize⟩⟩
  have hread := read_eq_ok.2 ⟨gs, hgiven, (foldlM_set gs).2 ⟨htakes, rfl⟩⟩
  have hcount' : parseU32 run.count.repr = some run.count := Decimal.parse_toString hcount
  have hsize' : parseU32 run.size.repr = some run.size := Decimal.parse_toString hsize
  unfold parseArgs
  rw [hread]
  refine config_eq_ok.2 ⟨?_, ?_, ?_, ?_, ?_, ?_, ?_⟩ <;>
    simp [Args.of, lastOf, gs, makeConfig, Role.parse_eq_some, hcount', hsize']

/-- A `wasip3-guest` peer is given its launcher, its component and the arguments of its run, unless
it has ICE parameters. -/
theorem argv_wasip3Guest {wasmtimeBin component : String} {run : PeerRun} {argv : List String} :
    (PeerCommand.wasip3Guest wasmtimeBin component).argv run = some argv ↔
      (∀ ice, run.ice = some ice → ice.serverUrl = none ∧ ice.relayOnly = false) ∧
      argv = launcher wasmtimeBin run.bindAddr ++ component :: run.shared := by
  cases h : run.ice <;>
    simp [PeerCommand.argv, h, PeerIce.isDefault, @eq_comm _ argv, Option.isSome_iff_ne_none]

/-! ## The result line -/

/-- A JSON value, as far as a result line has a use for it. Source: `serde_json::Value`. -/
inductive Value where
  | string (s : String)
  | object (fields : List (String × Value))
  | other

/-- The value of a key. Source: `Value::get`. -/
def Value.get : Value → String → Option Value
  | .object fields, key => fields.lookup key
  | _, _ => none

/-- Source: `Value::as_str`. -/
def Value.asStr : Value → Option String
  | .string s => some s
  | _ => none

/-- The JSON shape of an outcome. Source: `TestOutcome::to_json`. -/
def TestOutcome.toJson : TestOutcome → Value
  | .pass => .object [("tag", .string "pass")]
  | .fail detail => .object [("tag", .string "fail"), ("val", .string detail)]
  | .skipped reason => .object [("tag", .string "skipped"), ("val", .string reason)]

/-- Why a process has no outcome. -/
inductive PeerError where
  | exited
  | noResultLine
  | notJson
  | missingTag
  | unknownTag (tag : String)
deriving DecidableEq, Repr

/-- Source: `parse_outcome`. -/
def parseOutcome (value : Value) : Except PeerError TestOutcome :=
  match (value.get "tag").bind Value.asStr with
  | none => .error .missingTag
  | some tag =>
    let detail := ((value.get "val").bind Value.asStr).getD ""
    match tag with
    | "pass" => .ok .pass
    | "fail" => .ok (.fail detail)
    | "skipped" => .ok (.skipped detail)
    | other => .error (.unknownTag other)

/-- A line without the carriage return that it ends in. Source: `str::lines`. -/
def chomp (l : List Char) : List Char :=
  if l.getLast? = some '\r' then l.dropLast else l

/-- Source: `parse_result_line`. -/
def parseResultLine (parse : List Char → Option Value) (text : List Char) :
    Except PeerError TestOutcome :=
  match ((Lines.split '\n' text).map chomp).reverse.find? fun l => trim l ≠ [] with
  | none => .error .noResultLine
  | some line =>
    match parse (trim line) with
    | none => .error .notJson
    | some value => parseOutcome value

theorem parseOutcome_toJson (o : TestOutcome) : parseOutcome o.toJson = .ok o := by
  cases o <;> rfl

/-- A line that is trimmed ends in no carriage return. -/
theorem chomp_of_trim {l : List Char} (h : trim l = l) : chomp l = l := by
  unfold chomp
  split
  · next hr =>
    rw [← h] at hr
    exact absurd (Lines.getLast?_trim hr) (by decide)
  · rfl

/-- The result line is the last one that is not blank. -/
theorem parseResultLine_last {parse : List Char → Option Value} {log line blank : List Char}
    {value : Value} (hlog : log = [] ∨ log.getLast? = some '\n') (hline : '\n' ∉ line)
    (htrim : trim line = line) (hne : line ≠ [])
    (hblank : ∀ l ∈ Lines.split '\n' blank, trim (chomp l) = [])
    (hparse : parse line = some value) :
    parseResultLine parse (log ++ (line ++ '\n' :: blank)) = parseOutcome value := by
  have hsplit : ∃ ls, Lines.split '\n' (log ++ (line ++ '\n' :: blank)) =
      ls ++ line :: Lines.split '\n' blank := by
    rcases hlog with rfl | hlog
    · exact ⟨[], Lines.split_line hline⟩
    · obtain ⟨log, rfl⟩ := List.getLast?_eq_some_iff.1 hlog
      refine ⟨Lines.split '\n' (log ++ ['\n']), ?_⟩
      rw [List.append_assoc, List.singleton_append, Lines.split_append, Lines.split_line hline]
  obtain ⟨ls, hls⟩ := hsplit
  have hnone : ((Lines.split '\n' blank).map chomp).reverse.find? (fun l => trim l ≠ []) =
      none := by
    refine List.find?_eq_none.2 fun l hl => ?_
    obtain ⟨l', hl', rfl⟩ := List.mem_map.1 (List.mem_reverse.1 hl)
    simpa using hblank l' hl'
  have hfind : ((Lines.split '\n' (log ++ (line ++ '\n' :: blank))).map chomp).reverse.find?
      (fun l => trim l ≠ []) = some line := by
    rw [hls, List.map_append, List.map_cons, List.reverse_append, List.reverse_cons,
      List.find?_append, List.find?_append, hnone, chomp_of_trim htrim]
    simp [htrim, hne]
  simp only [parseResultLine, hfind, htrim, hparse]

/-! ## A process from its arguments to its outcome -/

/-- What a process leaves: its standard output, and whether it succeeds. -/
structure Exit where
  stdout : List Char
  success : Bool

/-- The driver component, for a guest that prints something and reports an outcome. Source: `run` of
the driver. -/
def driverRun (print : Value → List Char) (guest : String → TestConfig → List Char × TestOutcome)
    (args : List String) : Exit :=
  match parseArgs args with
  | .error _ => { stdout := [], success := false }
  | .ok (testId, config) =>
    { stdout := (guest testId config).1 ++ (print (guest testId config).2.toJson ++ ['\n'])
      success := true }

/-- Source: `run_peer_command`. -/
def runPeerCommand (parse : List Char → Option Value) (e : Exit) : Except PeerError TestOutcome :=
  if e.success then parseResultLine parse e.stdout else .error .exited

section
variable {print : Value → List Char} {parse : List Char → Option Value}
  {guest : String → TestConfig → List Char × TestOutcome}

/-- **A `wasip3-guest` peer reports what its guest does.** For a printer and a parser of JSON that
agree on the outcome, and print it on one line: the process that is started with the argv of a run,
whose test, server and room are any texts, runs the guest for just this test, role, server, room and
parameters, and what is read of its output is the guest's outcome, whatever whole lines the guest
prints before. -/
theorem wasip3_peer_outcome {wasmtimeBin component : String} {run : PeerRun} {role : Role}
    {argv : List String} {log : List Char} {o : TestOutcome}
    (hargv : (PeerCommand.wasip3Guest wasmtimeBin component).argv run = some argv)
    (hrole : run.role = role.name) (hcount : run.count < 2 ^ 32) (hsize : run.size < 2 ^ 32)
    (hguest : guest run.testId (makeConfig role run.signalingUrl run.room run.count run.size) =
      (log, o))
    (hlog : log = [] ∨ log.getLast? = some '\n') (hparse : parse (print o.toJson) = some o.toJson)
    (hline : '\n' ∉ print o.toJson) (htrim : trim (print o.toJson) = print o.toJson)
    (hne : print o.toJson ≠ []) :
    ∃ args, argv = launcher wasmtimeBin run.bindAddr ++ component :: args ∧
      runPeerCommand parse (driverRun print guest args) = .ok o := by
  refine ⟨run.shared, (argv_wasip3Guest.1 hargv).2, ?_⟩
  rw [driverRun, parseArgs_shared run hrole hcount hsize]
  simp only [hguest, runPeerCommand, if_true]
  rw [parseResultLine_last hlog hline htrim hne (by simp) hparse, parseOutcome_toJson]

/-- A guest that prints a line and passes. -/
theorem wasip3_peer_outcome_of_pass : ∃ args,
    launcher "wasmtime" "127.0.0.1" ++ "c.wasm" :: ["--test", "ordering", "--role", "offerer",
        "--server", "--room", "--room", "r", "--message-count", "16", "--message-size", "512"] =
      launcher "wasmtime" "127.0.0.1" ++ "c.wasm" :: args ∧
    runPeerCommand (fun _ => some TestOutcome.pass.toJson)
      (driverRun (fun _ => "\x7b\"tag\":\"pass\"\x7d".toList) (fun _ _ => ("hi\n".toList, .pass))
        args) = .ok .pass := by
  let run : PeerRun :=
    { testId := "ordering", role := "offerer", signalingUrl := "--room", room := "r",
      count := 16, size := 512, bindAddr := "127.0.0.1", ice := none, disableMdns := false }
  have hargv : (PeerCommand.wasip3Guest "wasmtime" "c.wasm").argv run =
      some (launcher "wasmtime" "127.0.0.1" ++ "c.wasm" :: ["--test", "ordering", "--role",
        "offerer", "--server", "--room", "--room", "r", "--message-count", "16", "--message-size",
        "512"]) := by decide +kernel
  have hrole : run.role = Role.offerer.name := rfl
  exact wasip3_peer_outcome hargv hrole (by decide) (by decide) rfl (.inr (by decide)) rfl
    (by decide) (by decide) (by decide)

end

end WebrtcDatachannels.Adapter
