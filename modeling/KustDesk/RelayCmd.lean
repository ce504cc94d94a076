import KustDesk.Async.Component
import KustDesk.Async.SetLog
import KustDesk.CheckCmd
import KustDesk.Forwarded

/-!
# KustDesk — RelayCmd

`check_cmd` of hbbr: the commands that edit the two address lists, set the
limits and report the usage. Every lock of a list and every access to an
atomic is one step, so that commands may run into one another.
-/

namespace KustDesk

open Async Codec

/-- `s.parse` for an unsigned integer of that many bits. -/
def parseUnsigned (bits : Nat) (s : String) : Option Nat :=
  let cs := match s.toList with
    | '+' :: cs => cs
    | cs => cs
  let (ds, rest) := readDigits 10 cs
  if ds ≠ [] ∧ rest = [] ∧ ofDigits 10 ds < 2 ^ bits then some (ofDigits 10 ds) else none

/-- `std::str::from_utf8`. -/
def fromUtf8 (bytes : Bytes) : Option String := String.fromUTF8? ⟨bytes.toArray⟩

/-! ## The state -/

inductive IpList where
  | blacklist
  | blocklist
  deriving DecidableEq

inductive RelaySetting where
  | downgradeThreshold
  | downgradeStartCheck
  | limitSpeed
  | totalBandwidth
  | singleBandwidth
  deriving DecidableEq

/-- The globals of hbbr, those that a relay does not use included. -/
structure HbbrShared where
  relay : RelayShared := {}
  limitSpeed : Nat := 4 * 1024 * 1024
  totalBandwidth : Nat := 1024 * 1024 * 1024

namespace HbbrShared

def list (s : HbbrShared) : IpList → Finset String
  | .blacklist => s.relay.blacklist
  | .blocklist => s.relay.blocklist

def setList (s : HbbrShared) (l : IpList) (ips : Finset String) : HbbrShared :=
  match l with
  | .blacklist => { s with relay := { s.relay with blacklist := ips } }
  | .blocklist => { s with relay := { s.relay with blocklist := ips } }

def setting (s : HbbrShared) : RelaySetting → Nat
  | .downgradeThreshold => s.relay.downgradeThreshold100
  | .downgradeStartCheck => s.relay.downgradeStartCheck
  | .limitSpeed => s.limitSpeed
  | .totalBandwidth => s.totalBandwidth
  | .singleBandwidth => s.relay.singleBandwidth

def store (s : HbbrShared) (setting : RelaySetting) (n : Nat) : HbbrShared :=
  match setting with
  | .downgradeThreshold => { s with relay := { s.relay with downgradeThreshold100 := n } }
  | .downgradeStartCheck => { s with relay := { s.relay with downgradeStartCheck := n } }
  | .limitSpeed => { s with limitSpeed := n }
  | .totalBandwidth => { s with totalBandwidth := n }
  | .singleBandwidth => { s with relay := { s.relay with singleBandwidth := n } }

/-- Other streams that wait, and another usage. -/
def withRelay (s : HbbrShared) (peers : HashMap String RelayStream)
    (usage : HashMap String Usage) : HbbrShared :=
  { s with relay := { s.relay with peers, usage } }

/-- The globals that the relays use. -/
def relayPart : Part HbbrShared RelayShared where
  get s := s.relay
  put relay s := { s with relay }
  get_put _ _ := rfl

end HbbrShared

/-- The parameters of hbbr. -/
structure HbbrConfig extends RelayConfig where
  /-- `(v * 100.) as usize` of a text that parses as an `f64` above 0. -/
  hundredfold : String → Option Nat
  /-- `(v * 1024. * 1024.) as usize`, likewise. -/
  mega : String → Option Nat
  /-- `usize::BITS` -/
  bits : Nat := 64

/-- What a text sets the setting to. `v * 1000` wraps in a release build. -/
def RelaySetting.parse (cfg : HbbrConfig) : RelaySetting → String → Option Nat
  | .downgradeThreshold => cfg.hundredfold
  | .downgradeStartCheck => fun v =>
      ((parseUnsigned cfg.bits v).filter (0 < ·)).map (· * 1000 % 2 ^ cfg.bits)
  | .limitSpeed | .totalBandwidth | .singleBandwidth => cfg.mega

/-! ## The replies -/

/-- `{ip}: {elapsed}s {total}MB {highest}kb/s {average}kb/s {speed}kb/s`, `total`
still in bits. -/
structure UsageLine where
  ip : String
  elapsed : Nat
  total : Nat
  highest : Nat
  average : Nat
  speed : Nat
  deriving DecidableEq

inductive RelayReply where
  | empty
  /-- the list of the commands -/
  | help
  | found (isSome : Bool)
  /-- one address a line, in any order -/
  | ips (ips : Finset String)
  | setting (setting : RelaySetting) (n : Nat)
  | usage (lines : List UsageLine)
  deriving DecidableEq

/-- A line of the report, `none` for an entry that is passed over. -/
def usageLine (entry : String × Usage) : Option UsageLine :=
  let (ip, elapsed, total, highest, speed) := entry
  if elapsed = 0 then none
  else some { ip, elapsed := elapsed / 1000, total, highest, average := total / elapsed, speed }

/-- The order of the report: most traffic first. -/
def moreTraffic (a b : String × Usage) : Bool := decide (b.2.2.1 ≤ a.2.2.1)

/-- The report of the command `usage`. The entries come in the order of the
table, and `sort_by` is stable. -/
def usageReport (usage : HashMap String Usage) : List UsageLine :=
  ((usage.entries.map fun x => (x.1, x.2)).mergeSort moreTraffic).filterMap usageLine

/-! ## The steps -/

/-- The atomic steps of hbbr. -/
inductive HbbrOp where
  /-- A step of `make_pair`. -/
  | relay (op : RelayOp)
  /-- The look at `BLOCKLIST` in `handle_connection`. -/
  | enter (ip : String)
  /-- What is read within a second from the host itself. -/
  | read (data : Option Bytes)
  /-- A command takes the lock of a list to write or to read. -/
  | edit (list : IpList) (edit : SetEdit String)
  | query (list : IpList)
  | store (setting : RelaySetting) (n : Nat)
  | load (setting : RelaySetting)
  /-- `set_speed_limit` of the limiter for the total. -/
  | limit (n : Nat)
  | usage
  | reply (reply : RelayReply)
  deriving DecidableEq

abbrev HbbrTask := Task Env HbbrOp HbbrShared

abbrev HbbrEvent := Event Env HbbrOp HbbrShared

/-- A step that others can see but that changes nothing shared. -/
def hbbrNote (op : HbbrOp) : HbbrTask Unit := .look op fun _ _ => ()

def editList (list : IpList) (edit : SetEdit String) : HbbrTask Unit :=
  .act (.edit list edit) fun _ s => ((), s.setList list (edit.apply (s.list list)))

/-- The edits one after the other, each under a lock of its own. -/
def editsList (list : IpList) : List (SetEdit String) → HbbrTask Unit
  | [] => return ()
  | edit :: rest => do
    editList list edit
    editsList list rest

def storeSetting (setting : RelaySetting) (n : Nat) : HbbrTask Unit :=
  .act (.store setting n) fun _ s => ((), s.store setting n)

/-! ## The commands -/

inductive RelayCmdWord where
  | help
  | add (list : IpList)
  | remove (list : IpList)
  | query (list : IpList)
  | setting (setting : RelaySetting)
  | usage
  deriving DecidableEq

/-- The commands by their names, long or short. -/
def RelayCmdWord.ofString : String → Option RelayCmdWord
  | "h" => some .help
  | "blacklist-add" | "ba" => some (.add .blacklist)
  | "blacklist-remove" | "br" => some (.remove .blacklist)
  | "blacklist" | "b" => some (.query .blacklist)
  | "blocklist-add" | "Ba" => some (.add .blocklist)
  | "blocklist-remove" | "Br" => some (.remove .blocklist)
  | "blocklist" | "B" => some (.query .blocklist)
  | "downgrade-threshold" | "dt" => some (.setting .downgradeThreshold)
  | "downgrade-start-check" | "t" => some (.setting .downgradeStartCheck)
  | "limit-speed" | "ls" => some (.setting .limitSpeed)
  | "total-bandwidth" | "tb" => some (.setting .totalBandwidth)
  | "single-bandwidth" | "sb" => some (.setting .singleBandwidth)
  | "usage" | "u" => some .usage
  | _ => none

/-- `ip.split('|')`. -/
def alternatives (arg : String) : List String := (arg.toList.splitOn '|').map String.ofList

/-- What the argument of a `-remove` takes out of its list. -/
def removals (arg : String) : List (SetEdit String) :=
  if arg = "all" then [.clear] else (alternatives arg).map .erase

/-- The commands `blacklist` and `blocklist`. -/
def showList (list : IpList) (fds : List String) : HbbrTask RelayReply := do
  match fds with
  | ip :: _ =>
    let isSome ← Task.look (.query list) fun _ s => decide (ip ∈ s.list list)
    return .found isSome
  | [] =>
    let ips ← Task.look (.query list) fun _ s => s.list list
    return .ips ips

/-- The commands for the settings. The total bandwidth is handed on to its
limiter. -/
def settingCommand (cfg : HbbrConfig) (setting : RelaySetting) (fds : List String) :
    HbbrTask RelayReply := do
  match fds with
  | v :: _ =>
    match setting.parse cfg v with
    | some n =>
      storeSetting setting n
      if setting = .totalBandwidth then
        let total ← Task.look (.load setting) fun _ s => s.setting setting
        hbbrNote (.limit total)
      return .empty
    | none => return .empty
  | [] =>
    let n ← Task.look (.load setting) fun _ s => s.setting setting
    return .setting setting n

/-- `check_cmd` of `relay_server.rs`. Irreducible, so that no goal about a command
is evaluated by splitting its text. -/
@[irreducible]
def relayCheckCmd (cfg : HbbrConfig) (cmd : String) : HbbrTask RelayReply :=
  match cmdWords cmd with
  | [] => return .empty
  | word :: fds =>
    match RelayCmdWord.ofString word with
    | none => return .empty
    | some .help => return .help
    | some (.add list) =>
      match fds with
      | arg :: _ => do
        editsList list ((alternatives arg).map .insert)
        return .empty
      | [] => return .empty
    | some (.remove list) =>
      match fds with
      | arg :: _ => do
        editsList list (removals arg)
        return .empty
      | [] => return .empty
    | some (.query list) => showList list fds
    | some (.setting setting) => settingCommand cfg setting fds
    | some .usage => do
      let lines ← Task.look .usage fun _ s => usageReport s.relay.usage
      return .usage lines

/-! ## What a command does -/

/-- The edits of a list that a command is to make. -/
def cmdEdits (list : IpList) (cmd : String) : List (SetEdit String) :=
  match cmdWords cmd with
  | word :: arg :: _ =>
    match RelayCmdWord.ofString word with
    | some (.add l) => if l = list then (alternatives arg).map .insert else []
    | some (.remove l) => if l = list then removals arg else []
    | _ => []
  | _ => []

/-- The command is one for the setting, with a value that parses. -/
def CmdSets (cfg : HbbrConfig) (cmd : String) (setting : RelaySetting) (n : Nat) : Prop :=
  ∃ word v rest, cmdWords cmd = word :: v :: rest
    ∧ RelayCmdWord.ofString word = some (.setting setting) ∧ setting.parse cfg v = some n

def HbbrOp.editOf (list : IpList) : HbbrOp → Option (SetEdit String)
  | .edit l x => if l = list then some x else none
  | _ => none

theorem HbbrOp.editOf_eq_some {list : IpList} {op : HbbrOp} {x : SetEdit String} :
    op.editOf list = some x ↔ op = .edit list x := by
  unfold editOf
  split
  · rename_i l y
    rw [Option.ite_none_right_eq_some, Option.some.injEq, HbbrOp.edit.injEq]
  · rename_i h
    simp only [reduceCtorEq, false_iff]
    exact h list x

/-- The edits of a list among some steps. -/
def editsOf (list : IpList) (es : List HbbrEvent) : List (SetEdit String) :=
  es.filterMap fun ev => ev.op.editOf list

/-- What a step of hbbr does, by its label. -/
def HbbrEffect (ev : HbbrEvent) : Prop :=
  match ev.op with
  | .relay _ => ∃ peers usage, ev.post = ev.pre.withRelay peers usage
  | .edit list edit => ev.post = ev.pre.setList list (edit.apply (ev.pre.list list))
  | .store setting n => ev.post = ev.pre.store setting n
  | _ => ev.post = ev.pre

/-- The lines of a report are those of the table, when it was looked at. -/
def Reported (es : List HbbrEvent) (reply : RelayReply) : Prop :=
  ∀ lines, reply = .usage lines →
    ∃ look ∈ es, look.op = .usage ∧ lines = usageReport look.pre.relay.usage

/-- What a command does next, by the steps it has taken. -/
structure CommandStep (cfg : HbbrConfig) (cmd : String) (es : List HbbrEvent) (ev : HbbrEvent) :
    Prop where
  effect : HbbrEffect ev
  edit : ∀ list edit, ev.op = .edit list edit → edit ∈ cmdEdits list cmd
  store : ∀ setting n, ev.op = .store setting n → CmdSets cfg cmd setting n
  reply : ∀ reply, ev.op = .reply reply → Reported es reply
  inside : ∀ op ip data, ev.op ≠ .relay op ∧ ev.op ≠ .enter ip ∧ ev.op ≠ .read data

/-- With these steps in front, the edits of the command have been made, and the
reply is one to it. -/
structure Finished (before : List HbbrEvent) (cmd : String) (es : List HbbrEvent)
    (reply : RelayReply) : Prop where
  edited : ∀ list, editsOf list es = editsOf list before ++ cmdEdits list cmd
  reported : Reported es reply

section
variable {cfg : HbbrConfig} {cmd : String} {es : List HbbrEvent} {list : IpList}

@[simp] theorem editsOf_append (es es' : List HbbrEvent) :
    editsOf list (es ++ es') = editsOf list es ++ editsOf list es' := List.filterMap_append

theorem editsOf_snoc_other {ev : HbbrEvent} (h : ev.op.editOf list = none) :
    editsOf list (es ++ [ev]) = editsOf list es := by simp [editsOf, h]

theorem Finished.of_none {reply : RelayReply} (hcmd : ∀ list, cmdEdits list cmd = [])
    {es' : List HbbrEvent} (hes : ∀ list, editsOf list es' = editsOf list es)
    (hreply : ∀ lines, reply ≠ .usage lines) : Finished es cmd es' reply where
  edited list := by rw [hes, hcmd, List.append_nil]
  reported lines h := (hreply lines h).elim

theorem editsList_heeds (l : IpList) (edits : List (SetEdit String))
    (hcmd : ∀ edit ∈ edits, edit ∈ cmdEdits l cmd) :
    (editsList l edits).Heeds (CommandStep cfg cmd)
      (fun es' _ => ∀ list, editsOf list es' = editsOf list es ++ if l = list then edits else [])
      es := by
  induction edits generalizing es with
  | nil => exact fun list => by simp
  | cons edit edits ih =>
      rw [List.forall_mem_cons] at hcmd
      intro e s
      refine ⟨⟨rfl, ?_, by simp, by simp, by simp⟩, ?_⟩
      · rintro list edit' hop
        cases hop
        exact hcmd.1
      · refine (ih hcmd.2).mono fun es' _ h list => ?_
        rw [h list, editsOf_append, List.append_assoc]
        by_cases hl : l = list
        · simp [editsOf, HbbrOp.editOf, hl]
        · simp [editsOf, HbbrOp.editOf, hl]

theorem showList_heeds (l : IpList) (fds : List String) (hnone : ∀ list, cmdEdits list cmd = []) :
    (showList l fds).Heeds (CommandStep cfg cmd) (Finished es cmd) es := by
  cases fds with
  | nil =>
      exact fun e s => ⟨⟨rfl, by simp, by simp, by simp, by simp⟩,
        .of_none hnone (fun list => editsOf_snoc_other rfl) (by simp)⟩
  | cons ip rest =>
      exact fun e s => ⟨⟨rfl, by simp, by simp, by simp, by simp⟩,
        .of_none hnone (fun list => editsOf_snoc_other rfl) (by simp)⟩

theorem settingCommand_heeds {setting : RelaySetting} {fds : List String}
    (hnone : ∀ list, cmdEdits list cmd = [])
    (hsets : ∀ v rest n, fds = v :: rest → setting.parse cfg v = some n →
      CmdSets cfg cmd setting n) :
    (settingCommand cfg setting fds).Heeds (CommandStep cfg cmd) (Finished es cmd) es := by
  cases fds with
  | nil =>
      exact fun e s => ⟨⟨rfl, by simp, by simp, by simp, by simp⟩,
        .of_none hnone (fun list => editsOf_snoc_other rfl) (by simp)⟩
  | cons v rest =>
      unfold settingCommand
      dsimp only
      cases hparse : setting.parse cfg v with
      | none => exact .of_none hnone (fun _ => rfl) (by simp)
      | some n =>
          refine fun e s => ⟨⟨rfl, by simp, ?_, by simp, by simp⟩, ?_⟩
          · rintro setting' n' hop
            cases hop
            exact hsets v rest n rfl hparse
          · split
            · refine fun e₁ s₁ => ⟨⟨rfl, by simp, by simp, by simp, by simp⟩, fun e₂ s₂ =>
                ⟨⟨rfl, by simp, by simp, by simp, by simp⟩, .of_none hnone ?_ (by simp)⟩⟩
              intro list
              rw [editsOf_snoc_other rfl, editsOf_snoc_other rfl, editsOf_snoc_other rfl]
            · exact .of_none hnone (fun list => editsOf_snoc_other rfl) (by simp)

/-- A command makes its own edits, in their order, and changes no other setting
than its own. -/
theorem relayCheckCmd_heeds (cfg : HbbrConfig) (cmd : String) (es : List HbbrEvent) :
    (relayCheckCmd cfg cmd).Heeds (CommandStep cfg cmd) (Finished es cmd) es := by
  unfold relayCheckCmd
  cases hwords : cmdWords cmd with
  | nil => exact .of_none (fun list => by simp [cmdEdits, hwords]) (fun _ => rfl) (by simp)
  | cons word fds =>
      dsimp only
      cases hword : RelayCmdWord.ofString word with
      | none =>
          refine .of_none (fun list => ?_) (fun _ => rfl) (by simp)
          cases fds <;> simp [cmdEdits, hwords, hword]
      | some w =>
          have hnone (hw : ∀ l, w ≠ .add l ∧ w ≠ .remove l) (list : IpList) :
              cmdEdits list cmd = [] := by
            cases fds with
            | nil => simp [cmdEdits, hwords]
            | cons arg rest =>
                simp only [cmdEdits, hwords, hword]
                split <;> simp_all
          cases w with
          | help => exact .of_none (hnone (by simp)) (fun _ => rfl) (by simp)
          | usage =>
              refine fun e s => ⟨⟨rfl, by simp, by simp, by simp, by simp⟩, fun list => ?_, ?_⟩
              · rw [editsOf_snoc_other rfl, hnone (by simp), List.append_nil]
              · rintro lines hlines
                cases hlines
                exact ⟨_, List.mem_append_right _ (List.mem_singleton_self _), rfl, rfl⟩
          | query l => exact showList_heeds l fds (hnone (by simp))
          | setting setting =>
              refine settingCommand_heeds (hnone (by simp)) fun v rest n hfds hparse => ?_
              exact ⟨word, v, rest, hfds ▸ hwords, hword, hparse⟩
          | add l =>
              cases fds with
              | nil =>
                  exact .of_none (fun list => by simp [cmdEdits, hwords]) (fun _ => rfl) (by simp)
              | cons arg rest =>
                  have hedits (list : IpList) : cmdEdits list cmd
                      = if l = list then (alternatives arg).map .insert else [] := by
                    simp [cmdEdits, hwords, hword]
                  refine Task.Heeds.bind (editsList_heeds l _ fun edit hedit => ?_)
                    fun es' _ h => ?_
                  · rwa [hedits, if_pos rfl]
                  · exact ⟨fun list => by rw [h, hedits], fun lines hlines => by cases hlines⟩
          | remove l =>
              cases fds with
              | nil =>
                  exact .of_none (fun list => by simp [cmdEdits, hwords]) (fun _ => rfl) (by simp)
              | cons arg rest =>
                  have hedits (list : IpList) : cmdEdits list cmd
                      = if l = list then removals arg else [] := by
                    simp [cmdEdits, hwords, hword]
                  refine Task.Heeds.bind (editsList_heeds l _ fun edit hedit => ?_)
                    fun es' _ h => ?_
                  · rwa [hedits, if_pos rfl]
                  · exact ⟨fun list => by rw [h, hedits], fun lines hlines => by cases hlines⟩

end

end KustDesk
