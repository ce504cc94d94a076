import KustDesk.Administration
import KustDesk.Async.Ticket
import KustDesk.RelayServers

/-!
# KustDesk — RelayRotation

The relay servers are handed out in turns. All tasks draw from one counter, so
that the turns are kept however the requests run into one another; they are cut
short where the counter starts over, unless their number divides its range.
-/

namespace KustDesk

open Async

theorem rotation_lt (w : Hbbs) : w.shared.rotationRelayServer.word.toNat
    < 2 ^ w.shared.rotationRelayServer.bits := BitVec.isLt _

/-- `ROTATION_RELAY_SERVER`. -/
def rotation : Counter Env HbbsOp Hbbs where
  value w := w.shared.rotationRelayServer.word.toNat
  modulus w := 2 ^ w.shared.rotationRelayServer.bits
  value_lt := rotation_lt
  draws ev :=
    match ev.op with
    | .server .rotate => true
    | _ => false

/-- The server whose turn it is. -/
def turnOf (servers : List String) (k : Nat) : Option String := servers[k % servers.length]?

/-! ## The steps -/

/-- Of the steps of the server, only `rotate` counts. -/
theorem Op.effect.rotation {op : Op} {s s' : Shared} (h : op.effect s s') (hop : op ≠ .rotate) :
    s'.rotationRelayServer = s.rotationRelayServer := by
  cases op with
  | pm op =>
      obtain ⟨pm, rfl⟩ := h
      rfl
  | rotate => exact (hop rfl).elim
  | _ =>
      cases h
      rfl

theorem CmdWord.run_rotation (word : CmdWord) (e : Env) (s : Shared) (fds : List String) :
    (word.run e s fds).rotationRelayServer = s.rotationRelayServer := by
  unfold CmdWord.run
  split <;> rfl

theorem rotation_draws {ev : HbbsEvent} : rotation.draws ev = true ↔ ev.op = .server .rotate := by
  unfold KustDesk.rotation
  dsimp only
  constructor
  · intro h
    split at h
    · assumption
    · cases h
  · intro hop
    rw [hop]

theorem HbbsEffect.counts {x : External} {ev : HbbsEvent} (h : HbbsEffect x ev) :
    rotation.Counts ev := by
  obtain ⟨op, e, w, w'⟩ := ev
  replace h : op.effect x e w w' := h
  have hsame (heq : w'.shared.rotationRelayServer = w.shared.rotationRelayServer)
      (hdraws : rotation.draws ⟨op, e, w, w'⟩ = false) : rotation.Counts ⟨op, e, w, w'⟩ := by
    unfold Counter.Counts
    rw [hdraws]
    show 2 ^ w'.shared.rotationRelayServer.bits = _ ∧ w'.shared.rotationRelayServer.word.toNat = _
    rw [heq]
    exact ⟨rfl, (Nat.mod_eq_of_lt (rotation_lt w)).symm⟩
  by_cases hop : op = .server .rotate
  · subst hop
    obtain ⟨shared, hrotate, hpost⟩ := h
    have hnext : w'.shared.rotationRelayServer = w.shared.rotationRelayServer.next := by
      rw [hpost, HbbsOp.queues_shared, show shared = _ from hrotate]
    show 2 ^ w'.shared.rotationRelayServer.bits = _ ∧ w'.shared.rotationRelayServer.word.toNat = _
    rw [hnext]
    exact ⟨rfl, AtomicUsize.next_toNat _⟩
  · have hdraws : rotation.draws ⟨op, e, w, w'⟩ = false :=
      Bool.eq_false_iff.mpr fun h => hop (rotation_draws.mp h)
    refine hsame ?_ hdraws
    rcases h.shared with hshared | ⟨op', rfl, heffect⟩ | ⟨word, fds, -, hshared⟩
    · rw [hshared]
    · exact heffect.rotation fun h => hop (congrArg HbbsOp.server h)
    · rw [hshared, CmdWord.run_rotation]

theorem hbbs_counts {ι : Type} (cfg : Config) (turns : List Ready) (jobs : ι → HbbsJob) (w : Hbbs)
    (i : Option ι) : ((hbbs cfg turns jobs w).tasks i).All rotation.Counts := by
  cases i with
  | none => exact (mainLoop_effect cfg turns).mono fun ev hev => hev.effect.counts
  | some j => exact (HbbsJob.task_steps cfg (jobs j)).mono fun ev hev => hev.effect.counts

/-! ## The turns -/

/-- Where there is a choice, one number is drawn, and decides. -/
theorem getRelayServer_turn {rs : RendezvousServer} {es : List ServerEvent} {server : String}
    (hlength : 2 ≤ rs.relayServers.length) (h : rs.getRelayServer.Path es (.done server)) :
    ∃ ev, es = [ev] ∧ ev.op = .rotate
      ∧ turnOf rs.relayServers ev.pre.rotationRelayServer.word.toNat = some server := by
  unfold RendezvousServer.getRelayServer at h
  rw [if_neg (by rw [List.isEmpty_iff]; rintro hnil; simp [hnil] at hlength),
    if_neg (by omega)] at h
  obtain ⟨es₁, i, es₂, rfl, hact, hrest⟩ := Task.path_bind_done h
  obtain ⟨e, s, rfl, rfl⟩ := Task.path_act_done hact
  have hserver := path_unwrap_done hrest
  have hnil : es₂ = [] := by
    rw [hserver] at hrest
    exact (Task.path_done hrest).1
  rw [hnil]
  exact ⟨_, rfl, rfl, hserver⟩

variable {ι : Type} [DecidableEq ι] {cfg : Config} {turns : List Ready} {jobs : ι → HbbsJob}
  {w : Hbbs} {es₁ es₂ es₃ : List (Option ι × HbbsEvent)}
  {q : Pool (Option ι) Env HbbsOp Hbbs fun _ => Unit}

theorem turnOf_eq_some {servers : List String} (hnodup : servers.Nodup) {slot : Nat}
    (hslot : slot < servers.length) (k : Nat) :
    turnOf servers k = some servers[slot] ↔ k % servers.length = slot := by
  have hk : k % servers.length < servers.length := Nat.mod_lt _ (by omega)
  rw [turnOf, List.getElem?_eq_getElem hk, Option.some.injEq, hnodup.getElem_inj_iff]

def bothServers : List String := ["relay.example.com", "relay.example.org"]

def askedTwice : Pool (Option Bool) Env HbbsOp Hbbs fun _ => Unit :=
  hbbs adminConfig [] (fun _ => .natPort (hostAsks "tg 10.0.0.1"))
    { adminStart with main := { rs := { relayServers := bothServers } } }

def twiceSchedule : List (Option Bool × Env) :=
  adminSchedule [some false, some true, some true, some false, some true, some false]

end KustDesk
