import KustDesk.IoLoop
import KustDesk.ServerKey
import KustDesk.AddrParse
import KustDesk.NoPanic

/-!
# KustDesk — CheckCmd

`check_cmd` of hbbs, the commands that are sent from the server's own host. A
reply is given by its values, in the order of its lines. A command changes a
setting at once, or queues a message for the main task.
-/

namespace KustDesk

open Async Codec

/-- `HashMap::retain`. -/
def HashMap.retain {κ ν : Type} (m : HashMap κ ν) (keep : ν → Bool) : HashMap κ ν where
  entries := m.entries.filter fun x => keep x.2
  nodupKeys := m.nodupKeys.sublist List.filter_sublist

theorem HashMap.lookup_retain {κ ν : Type} [DecidableEq κ] (m : HashMap κ ν) (keep : ν → Bool)
    (k : κ) : (HashMap.retain m keep).lookup k = (m.lookup k).filter keep := by
  apply Option.ext
  intro v
  have hmem (m : HashMap κ ν) : m.lookup k = some v ↔ ⟨k, v⟩ ∈ m.entries :=
    AList.mem_lookup_iff
  rw [hmem, Option.filter_eq_some_iff, hmem]
  simp [HashMap.retain]

/-! ## The text of a command -/

/-- `cmd.trim().split(' ')`. -/
def cmdWords (cmd : String) : List String :=
  ((trim cmd).toList.splitOn ' ').map String.ofList

inductive CmdWord where
  | help
  | relayServers
  | ipBlocker
  | ipChanges
  | alwaysUseRelay
  | testGeo
  | mustLogin
  deriving DecidableEq

/-- The commands by their names, long or short. `reload-geo` is listed by `h`
but does nothing. -/
def CmdWord.ofString : String → Option CmdWord
  | "h" => some .help
  | "relay-servers" | "rs" => some .relayServers
  | "ip-blocker" | "ib" => some .ipBlocker
  | "ip-changes" | "ic" => some .ipChanges
  | "always-use-relay" | "aur" => some .alwaysUseRelay
  | "test-geo" | "tg" => some .testGeo
  | "must-login" | "ml" => some .mustLogin
  | _ => none

/-- The digits of an `i32`, behind the sign. -/
def parseI32Digits (negative : Bool) (cs : List Char) : Option Int :=
  let (ds, rest) := readDigits 10 cs
  let n : Int := if negative then -ofDigits 10 ds else ofDigits 10 ds
  if ds ≠ [] ∧ rest = [] ∧ -2 ^ 31 ≤ n ∧ n < 2 ^ 31 then some n else none

/-- `s.parse::<i32>()`. -/
def parseI32 (s : String) : Option Int :=
  match s.toList with
  | '-' :: cs => parseI32Digits true cs
  | '+' :: cs => parseI32Digits false cs
  | cs => parseI32Digits false cs

/-- `s.to_uppercase() == "Y"`: no other character has `Y` for its upper case. -/
def isYes (s : String) : Bool := s = "Y" || s = "y"

/-! ## The replies -/

/-- `{ip}: {attempts}/{last}s {ids}/{since}s`. -/
structure BlockerLine where
  ip : String
  attempts : Nat
  last : Nat
  ids : Nat
  since : Nat
  deriving DecidableEq

/-- `{id}: {since}s {ips:?}`. -/
structure ChangesLine where
  id : String
  since : Nat
  ips : HashMap String Nat

inductive CmdReply where
  | empty
  /-- the list of the commands -/
  | help
  | relayServers (rs : List String)
  | ipBlocker (len : Nat) (lines : List BlockerLine)
  | ipChanges (len : Nat) (lines : List ChangesLine)
  | alwaysUseRelay (on : Bool)
  | relayServer (rs : String)
  | mustLogin (on : Bool)

/-- The lines from index `start` on, ten at most. `start + 10` is an `i32` and
may wrap: then there are none. -/
def cmdWindow {α : Type} (start : Int) (lines : List α) : List α :=
  if start + 10 < 2 ^ 31 then (lines.drop start.toNat).take 10 else []

/-- The commands `ip-blocker` and `ip-changes`: the entries that are out of
date go, and then the length and some entries are listed, or the one under a
key, which a `-` removes. `single` tells a number that is taken for a key. The
order of the entries is that of the list. -/
def cmdTable {ν ρ : Type} (keep : ν → Bool) (single : Int → Bool) (line : String → ν → ρ)
    (m : HashMap String ν) (fds : List String) : (Nat × List ρ) × HashMap String ν :=
  let m := m.retain keep
  let len := m.entries.length
  let list (m : HashMap String ν) := m.entries.map fun x => line x.1 x.2
  match fds with
  | [] => ((len, cmdWindow 0 (list m)), m)
  | key :: rest =>
    let start := (parseI32 key).getD (-1)
    let found := if single start then ((m.lookup key).map (line key)).toList else []
    let m := if single start && rest.head? = some "-" then m.erase key else m
    let lines := if start ≥ 0 then cmdWindow start (list m) else []
    ((len, found ++ lines), m)

/-- Without a `-`, only what is out of date goes. -/
theorem cmdTable_snd {ν ρ : Type} {keep : ν → Bool} {single : Int → Bool} {line : String → ν → ρ}
    {m : HashMap String ν} {fds : List String} (h : fds[1]? ≠ some "-") :
    (cmdTable keep single line m fds).2 = m.retain keep := by
  cases fds with
  | nil => rfl
  | cons key rest =>
      have hhead : rest.head? ≠ some "-" := by
        rw [List.head?_eq_getElem?]
        exact h
      unfold cmdTable
      simp [hhead]

/-- Not yet out of date in `IP_BLOCKER`. -/
def blockerLive (now : Instant) (v : (Nat × Instant) × (Finset String × Instant)) : Bool :=
  Instant.asSecs (Instant.elapsed now v.1.2) ≤ ipBlockDur
    || Instant.asSecs (Instant.elapsed now v.2.2) ≤ daySeconds

/-- Not yet out of date in `IP_CHANGES`, and more than one address. -/
def changesLive (now : Instant) (v : Instant × HashMap String Nat) : Bool :=
  Instant.asSecs (Instant.elapsed now v.1) < ipChangeDur * 2 && v.2.entries.length > 1

/-- The sweep of `ip-blocker`. -/
def IpBlockMap.sweep (m : IpBlockMap) (now : Instant) : IpBlockMap := m.retain (blockerLive now)

/-- The sweep of `ip-changes`. -/
def IpChangesMap.sweep (m : IpChangesMap) (now : Instant) : IpChangesMap :=
  m.retain (changesLive now)

/-- The command `ip-blocker`. -/
def IpBlockMap.command (m : IpBlockMap) (now : Instant) (fds : List String) :
    CmdReply × IpBlockMap :=
  let line (ip : String) (v : (Nat × Instant) × (Finset String × Instant)) : BlockerLine :=
    { ip, attempts := v.1.1, last := Instant.asSecs (Instant.elapsed now v.1.2)
      ids := v.2.1.card, since := Instant.asSecs (Instant.elapsed now v.2.2) }
  let ((len, lines), m) := cmdTable (blockerLive now) (fun start => start < 0) line m fds
  (.ipBlocker len lines, m)

/-- The command `ip-changes`. -/
def IpChangesMap.command (m : IpChangesMap) (now : Instant) (fds : List String) :
    CmdReply × IpChangesMap :=
  let line (id : String) (v : Instant × HashMap String Nat) : ChangesLine :=
    { id, since := Instant.asSecs (Instant.elapsed now v.1), ips := v.2 }
  let ((len, lines), m) := cmdTable (changesLive now)
    (fun start => start < 0 || start > 10000000) line m fds
  (.ipChanges len lines, m)

theorem IpBlockMap.command_snd (m : IpBlockMap) (now : Instant) {fds : List String}
    (h : fds[1]? ≠ some "-") : (m.command now fds).2 = m.sweep now := by
  unfold command
  dsimp only
  rw [cmdTable_snd h, sweep]

theorem IpChangesMap.command_snd (m : IpChangesMap) (now : Instant) {fds : List String}
    (h : fds[1]? ≠ some "-") : (m.command now fds).2 = m.sweep now := by
  unfold command
  dsimp only
  rw [cmdTable_snd h, sweep]

/-! ## The commands -/

/-- The atomic steps of a command: a step of the server, or the setting that is
looked at or changed. -/
inductive CmdOp where
  | server (op : Op)
  | setting (word : CmdWord)
  deriving DecidableEq

abbrev CmdTask := Task Env CmdOp Shared

/-- The whole state. -/
def Shared.whole : Part Shared Shared where
  get s := s
  put s _ := s
  get_put _ _ := rfl

/-- A task of the server, run for a command. -/
def ServerTask.command {α : Type} (t : ServerTask α) : CmdTask α := t.lift Shared.whole .server

/-- `check_cmd`: the reply, and what is sent to the main task. -/
def checkCmd (rs : RendezvousServer) (cmd : String) : CmdTask (CmdReply × List Data) :=
  match cmdWords cmd with
  | [] => return (.empty, [])
  | word :: fds =>
    match CmdWord.ofString word with
    | none => return (.empty, [])
    | some .help => return (.help, [])
    | some .relayServers =>
      match fds with
      | arg :: _ => return (.empty, [.relayServers0 arg])
      | [] => return (.relayServers rs.relayServers, [])
    | some .ipBlocker => do
      let reply ← Task.act (.setting .ipBlocker) fun e s =>
        let (reply, ipBlocker) := s.pm.ipBlocker.command e.now fds
        (reply, { s with pm := { s.pm with ipBlocker } })
      return (reply, [])
    | some .ipChanges => do
      let reply ← Task.act (.setting .ipChanges) fun e s =>
        let (reply, ipChanges) := s.pm.ipChanges.command e.now fds
        (reply, { s with pm := { s.pm with ipChanges } })
      return (reply, [])
    | some .alwaysUseRelay =>
      match fds with
      | arg :: _ => do
        Task.act (.setting .alwaysUseRelay) fun _ s => ((), { s with alwaysUseRelay := isYes arg })
        -- the argument is sent as well, as if it were a list of relay servers
        return (.empty, [.relayServers0 arg])
      | [] => do
        let on ← Task.look (.setting .alwaysUseRelay) fun _ s => s.alwaysUseRelay
        return (.alwaysUseRelay on, [])
    | some .testGeo =>
      -- one address or two are parsed, and not used
      if (fds.take 2).all (fun a => (parseIpAddr a).isSome) && fds ≠ [] then do
        let relayServer ← rs.getRelayServer.command
        return (.relayServer relayServer, [])
      else return (.empty, [])
    | some .mustLogin =>
      match fds with
      | arg :: _ => do
        Task.act (.setting .mustLogin) fun _ s => ((), { s with mustLogin := isYes arg })
        return (.empty, [])
      | [] => do
        let on ← Task.look (.setting .mustLogin) fun _ s => s.mustLogin
        return (.mustLogin on, [])

/-- A command, run on the clone `rs` of the server, and the messages it has
queued, as the main task then takes them. -/
def MainTask.command (x : External) (m : MainTask) (rs : RendezvousServer) (cmd : String) :
    CmdTask MainTask := do
  let (_, queued) ← checkCmd rs cmd
  (queued.foldlM (handleData x) m).command

/-! ## What a command changes -/

/-- The names of a command. -/
def CmdWord.names : CmdWord → List String
  | .help => ["h"]
  | .relayServers => ["relay-servers", "rs"]
  | .ipBlocker => ["ip-blocker", "ib"]
  | .ipChanges => ["ip-changes", "ic"]
  | .alwaysUseRelay => ["always-use-relay", "aur"]
  | .testGeo => ["test-geo", "tg"]
  | .mustLogin => ["must-login", "ml"]

theorem CmdWord.ofString_eq_some {w : String} {word : CmdWord} :
    CmdWord.ofString w = some word ↔ w ∈ word.names := by
  constructor
  · intro h
    unfold ofString at h
    split at h <;> cases h <;> simp [names]
  · intro h
    cases word <;> simp only [names, List.mem_cons, List.not_mem_nil, or_false] at h
    all_goals rcases h with rfl | rfl <;> rfl

/-- The first word of the text is this command, and these are the others. -/
def CmdIs (cmd : String) (word : CmdWord) (args : List String) : Prop :=
  ∃ w ∈ word.names, cmdWords cmd = w :: args

theorem CmdIs.unique {cmd : String} {word word' : CmdWord} {args args' : List String}
    (h : CmdIs cmd word args) (h' : CmdIs cmd word' args') : word = word' ∧ args = args' := by
  obtain ⟨w, hw, hwords⟩ := h
  obtain ⟨w', hw', hwords'⟩ := h'
  rw [hwords] at hwords'
  cases hwords'
  have hsame := (CmdWord.ofString_eq_some.mpr hw).symm.trans (CmdWord.ofString_eq_some.mpr hw')
  exact ⟨Option.some.inj hsame, rfl⟩

/-- The settings that only their own commands change. -/
structure MainTask.OwnSettingOnly (cmd : String) (m m' : MainTask) (s s' : Shared) : Prop where
  relayServers : ¬ (m'.relayServers0 = m.relayServers0 ∧ m'.rs.relayServers = m.rs.relayServers) →
    ∃ arg rest, CmdIs cmd .relayServers (arg :: rest)
  alwaysUseRelay : s'.alwaysUseRelay ≠ s.alwaysUseRelay → ∃ args, CmdIs cmd .alwaysUseRelay args
  mustLogin : s'.mustLogin ≠ s.mustLogin → ∃ args, CmdIs cmd .mustLogin args
  ipBlocker : s'.pm.ipBlocker ≠ s.pm.ipBlocker → ∃ args, CmdIs cmd .ipBlocker args
  ipChanges : s'.pm.ipChanges ≠ s.pm.ipChanges → ∃ args, CmdIs cmd .ipChanges args

/-- What a command comes to, once the main task has taken its messages. -/
inductive CmdEffect (x : External) (cmd : String) (m : MainTask) (s : Shared) :
    MainTask → Shared → Prop
  /-- It only replies, or hands out the next relay server. -/
  | asked (h : ∀ arg rest, ¬ CmdIs cmd .alwaysUseRelay (arg :: rest)) (n : AtomicUsize) :
      CmdEffect x cmd m s m { s with rotationRelayServer := n }
  | relayServers {arg rest} (h : CmdIs cmd .relayServers (arg :: rest)) :
      CmdEffect x cmd m s (m.parseRelayServers x arg) s
  | ipBlocker {args} (h : CmdIs cmd .ipBlocker args) (ipBlocker) :
      CmdEffect x cmd m s m { s with pm := { s.pm with ipBlocker } }
  | ipChanges {args} (h : CmdIs cmd .ipChanges args) (ipChanges) :
      CmdEffect x cmd m s m { s with pm := { s.pm with ipChanges } }
  | alwaysUseRelay {arg rest} (h : CmdIs cmd .alwaysUseRelay (arg :: rest)) :
      CmdEffect x cmd m s (m.parseRelayServers x arg) { s with alwaysUseRelay := isYes arg }
  | mustLogin {args} (h : CmdIs cmd .mustLogin args) (mustLogin) :
      CmdEffect x cmd m s m { s with mustLogin }

theorem run_getRelayServer (rs : RendezvousServer) (η : Nat → Env) (s : Shared) :
    ∃ r n, rs.getRelayServer.run η s = (some r, { s with rotationRelayServer := n }) := by
  have hreturns := (getRelayServer_noAbort rs).run η s
  have hstate : ∃ n, (rs.getRelayServer.run η s).2 = { s with rotationRelayServer := n } := by
    unfold RendezvousServer.getRelayServer
    split
    · exact ⟨s.rotationRelayServer, rfl⟩
    · split
      · exact ⟨s.rotationRelayServer, by cases rs.relayServers[0]? <;> rfl⟩
      · refine ⟨s.rotationRelayServer.next, ?_⟩
        show ((Task.unwrap _ rs.relayServers[_]?).run _ _).2 = _
        cases rs.relayServers[s.rotationRelayServer.word.toNat % rs.relayServers.length]? <;> rfl
  obtain ⟨r, hr⟩ := hreturns
  obtain ⟨n, hn⟩ := hstate
  exact ⟨r, n, Prod.ext hr hn⟩

theorem MainTask.run_alwaysUseRelay (x : External) (m : MainTask) (rs : RendezvousServer)
    {cmd arg : String} {rest : List String} (h : CmdIs cmd .alwaysUseRelay (arg :: rest))
    (η : Nat → Env) (s : Shared) :
    (m.command x rs cmd).run η s
      = (some (m.parseRelayServers x arg), { s with alwaysUseRelay := isYes arg }) := by
  obtain ⟨w, hw, hwords⟩ := h
  unfold command checkCmd
  rw [hwords]
  dsimp only
  rw [CmdWord.ofString_eq_some.mpr hw]
  rfl

theorem MainTask.run_command (x : External) (m : MainTask) (rs : RendezvousServer) (cmd : String)
    (η : Nat → Env) (s : Shared) :
    ∃ m' s', (m.command x rs cmd).run η s = (some m', s') ∧ CmdEffect x cmd m s m' s' := by
  unfold command checkCmd
  cases hwords : cmdWords cmd with
  | nil =>
      refine ⟨_, _, rfl, .asked ?_ s.rotationRelayServer⟩
      rintro arg rest ⟨w, -, haur⟩
      cases hwords.symm.trans haur
  | cons w fds =>
      dsimp only
      cases hword : CmdWord.ofString w with
      | none =>
          refine ⟨_, _, rfl, .asked ?_ s.rotationRelayServer⟩
          rintro arg rest ⟨w', hw', haur⟩
          cases hwords.symm.trans haur
          cases hword.symm.trans (CmdWord.ofString_eq_some.mpr hw')
      | some word =>
          have his : CmdIs cmd word fds := ⟨w, CmdWord.ofString_eq_some.mp hword, hwords⟩
          have hasked (hne : ¬ (word = .alwaysUseRelay ∧ fds ≠ [])) (arg : String)
              (rest : List String) : ¬ CmdIs cmd .alwaysUseRelay (arg :: rest) := by
            intro haur
            obtain ⟨rfl, rfl⟩ := his.unique haur
            exact hne ⟨rfl, by simp⟩
          cases word with
          | help => exact ⟨_, _, rfl, .asked (hasked (by simp)) s.rotationRelayServer⟩
          | relayServers =>
              cases fds with
              | nil => exact ⟨_, _, rfl, .asked (hasked (by simp)) s.rotationRelayServer⟩
              | cons arg rest => exact ⟨_, _, rfl, .relayServers his⟩
          | ipBlocker => exact ⟨_, _, rfl, .ipBlocker his _⟩
          | ipChanges => exact ⟨_, _, rfl, .ipChanges his _⟩
          | alwaysUseRelay =>
              cases fds with
              | nil => exact ⟨_, _, rfl, .asked (hasked (by simp)) s.rotationRelayServer⟩
              | cons arg rest =>
                  have hrun := m.run_alwaysUseRelay x rs his η s
                  unfold command checkCmd at hrun
                  rw [hwords] at hrun
                  dsimp only at hrun
                  rw [hword] at hrun
                  exact ⟨_, _, hrun, .alwaysUseRelay his⟩
          | mustLogin =>
              cases fds with
              | nil => exact ⟨_, _, rfl, .asked (hasked (by simp)) s.rotationRelayServer⟩
              | cons arg rest => exact ⟨_, _, rfl, .mustLogin his _⟩
          | testGeo =>
              dsimp only
              split
              · obtain ⟨r, n, hrun⟩ := run_getRelayServer rs η s
                refine ⟨m, { s with rotationRelayServer := n }, ?_, .asked (hasked (by simp)) n⟩
                rw [Task.bind_assoc]
                show (rs.getRelayServer.command >>= fun _ => Task.done m).run η s = _
                rw [Task.run_map, ServerTask.command,
                  Task.run_lift (fun _ => rfl) (fun _ _ _ => rfl)]
                simp only [Shared.whole, hrun, Option.map_some]
              · exact ⟨_, _, rfl, .asked (hasked (by simp)) s.rotationRelayServer⟩

/-- **Own settings.** A command changes its own setting only, unless it is
`always-use-relay` with an argument that makes another list of relay servers
than those there are. -/
theorem own_setting_only_iff (x : External) (m : MainTask) (rs : RendezvousServer) (cmd : String)
    (η : Nat → Env) (s : Shared) :
    ∃ m' s', (m.command x rs cmd).run η s = (some m', s')
      ∧ (m.OwnSettingOnly cmd m' s s' ↔
        ¬ ∃ arg rest, CmdIs cmd .alwaysUseRelay (arg :: rest)
          ∧ ¬ (getServers x arg = m.relayServers0 ∧ getServers x arg = m.rs.relayServers)) := by
  obtain ⟨m', s', hrun, heffect⟩ := m.run_command x rs cmd η s
  refine ⟨m', s', hrun, ?_⟩
  -- any other command only has to change nothing else
  have hother {word : CmdWord} {args : List String} (h : CmdIs cmd word args)
      (hword : word ≠ .alwaysUseRelay) (m' : MainTask) (s' : Shared)
      (hown : m.OwnSettingOnly cmd m' s s') :
      m.OwnSettingOnly cmd m' s s' ↔ ¬ ∃ arg rest, CmdIs cmd .alwaysUseRelay (arg :: rest)
          ∧ ¬ (getServers x arg = m.relayServers0 ∧ getServers x arg = m.rs.relayServers) := by
    refine iff_of_true hown ?_
    rintro ⟨arg, rest, haur, -⟩
    exact hword (h.unique haur).1
  cases heffect with
  | asked h n =>
      refine iff_of_true ⟨?_, ?_, ?_, ?_, ?_⟩ ?_
      · simp
      · simp
      · simp
      · simp
      · simp
      · rintro ⟨arg, rest, haur, -⟩
        exact h arg rest haur
  | @relayServers arg rest h =>
      refine hother h (by simp) _ _ ⟨fun _ => ⟨arg, rest, h⟩, ?_, ?_, ?_, ?_⟩ <;> simp
  | @ipBlocker args h =>
      refine hother h (by simp) _ _ ⟨?_, ?_, ?_, fun _ => ⟨args, h⟩, ?_⟩ <;> simp
  | @ipChanges args h =>
      refine hother h (by simp) _ _ ⟨?_, ?_, ?_, ?_, fun _ => ⟨args, h⟩⟩ <;> simp
  | @mustLogin args h =>
      refine hother h (by simp) _ _ ⟨?_, ?_, fun _ => ⟨args, h⟩, ?_, ?_⟩ <;> simp
  | @alwaysUseRelay arg rest h =>
      constructor
      · rintro hown ⟨arg', rest', haur, hservers⟩
        cases (h.unique haur).2
        obtain ⟨_, _, hrs⟩ := hown.relayServers hservers
        cases (h.unique hrs).1
      · intro hnone
        by_cases hservers : getServers x arg = m.relayServers0 ∧ getServers x arg = m.rs.relayServers
        · refine ⟨fun hne => (hne hservers).elim, fun _ => ⟨_, h⟩, ?_, ?_, ?_⟩ <;> simp
        · exact (hnone ⟨arg, rest, h, hservers⟩).elim

/-- A server with one relay server. -/
def oneRelay : MainTask :=
  { rs := { relayServers := ["relay.example.com"] }, relayServers0 := ["relay.example.com"] }

/-- Only names with a dot resolve. -/
def dottedNames : External :=
  { External.sample [] with resolves := fun host => host.toList.contains '.' }

/-- `aur N` takes it away. -/
theorem always_use_relay_clears : ∃ m' s',
    (oneRelay.command dottedNames oneRelay.rs "aur N").run (fun _ => { now := 0 }) (.start .empty)
        = (some m', s')
      ∧ m'.relayServers0 = [] ∧ m'.rs.relayServers = []
      ∧ ¬ oneRelay.OwnSettingOnly "aur N" m' (.start .empty) s' := by
  have haur : CmdIs "aur N" .alwaysUseRelay ["N"] :=
    ⟨"aur", by decide, by decide +kernel⟩
  have hempty : getServers dottedNames "N" = [] := by
    have hhosts : ("N".toList.splitOn ',').map String.ofList = ["N"] := by decide +kernel
    have hunknown : testIfValidServer dottedNames "N" = false := by
      unfold testIfValidServer
      split <;> decide +kernel
    rw [getServers, hhosts]
    simp [hunknown]
  refine ⟨_, _, oneRelay.run_alwaysUseRelay _ _ haur _ _, hempty, hempty, fun hown => ?_⟩
  obtain ⟨arg, rest, hrs⟩ := hown.relayServers fun hsame => by
    have hne : getServers dottedNames "N" ≠ oneRelay.relayServers0 := by
      rw [hempty]
      decide
    exact hne hsame.1
  cases (hrs.unique haur).1

end KustDesk
