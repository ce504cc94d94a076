import KustDesk.Datagram

/-!
# KustDesk — RelayServers

`get_relay_server` hands out elements of `relay_servers`, which is replaced
by a new list from the command line and by the result of a check. A check
works on the list of the moment it was spawned, and its result says nothing
of where it comes from.
-/

namespace KustDesk

open Async

/-- Only configured relay servers are there, and only such are handed out. -/
structure MainTask.Configured (m : MainTask) : Prop where
  relayServers : m.rs.relayServers ⊆ m.relayServers0
  getRelayServer : ∀ es s, m.rs.getRelayServer.Path es (.done s) →
    s = "" ∨ s ∈ m.relayServers0

/-- If the step takes the result of a check from the channel, the servers in
it are still configured. -/
def Timely (y : MainTask × Act) : Prop :=
  match y.2 with
  | .recv _ => ∀ rs rest, y.1.rx = .relayServers rs :: rest → rs ⊆ y.1.relayServers0
  | _ => True

/-! ## What is handed out -/

theorem path_unwrap_done {o : Option String} {why s : String} {es : List ServerEvent}
    (h : (Task.unwrap why o : ServerTask String).Path es (.done s)) : o = some s := by
  cases o with
  | none => cases h
  | some s' =>
      obtain ⟨-, hs⟩ := Task.path_done h
      cases hs
      rfl

theorem getRelayServer_mem {rs : RendezvousServer} {es : List ServerEvent} {s : String}
    (h : rs.getRelayServer.Path es (.done s)) : s = "" ∨ s ∈ rs.relayServers := by
  unfold RendezvousServer.getRelayServer at h
  split at h
  · obtain ⟨-, hs⟩ := Task.path_done h
    cases hs
    exact .inl rfl
  · split at h
    · exact .inr (List.mem_of_getElem? (path_unwrap_done h))
    · obtain ⟨es₁, i, es₂, -, -, hrest⟩ := Task.path_bind_done h
      exact .inr (List.mem_of_getElem? (path_unwrap_done hrest))

section Steps
variable {cfg : Config} {m m' : MainTask}

theorem MainTask.configured_iff : m.Configured ↔ m.rs.relayServers ⊆ m.relayServers0 := by
  constructor
  · exact MainTask.Configured.relayServers
  · intro hsub
    refine ⟨hsub, fun es s h => ?_⟩
    rcases getRelayServer_mem h with rfl | hmem
    · exact .inl rfl
    · exact .inr (hsub hmem)

/-- All but the channel's messages leave both lists alone. -/
theorem MainTask.Configured.congr (h : m.Configured)
    (hrs : m'.rs.relayServers = m.rs.relayServers)
    (hrs0 : m'.relayServers0 = m.relayServers0) : m'.Configured := by
  rw [MainTask.configured_iff, hrs, hrs0]
  exact h.relayServers

theorem MainTask.received_configured_iff {x : External} {d : Data} (hm : m.Configured) :
    (m.received x d).Configured ↔ ∀ rs, d = .relayServers rs → rs ⊆ m.relayServers0 := by
  cases d with
  | msg msg addr => exact iff_of_true hm nofun
  | relayServers0 rs =>
      refine iff_of_true ?_ nofun
      rw [MainTask.configured_iff]
      exact List.Subset.refl _
  | relayServers rs =>
      rw [MainTask.configured_iff]
      constructor
      · intro hsub rs' hd
        cases hd
        exact hsub
      · intro htimely
        exact htimely rs rfl

theorem MainTask.Step.configured_iff {a : Act} (h : m.Step cfg a m') (hm : m.Configured) :
    m'.Configured ↔ Timely (m, a) := by
  cases h with
  | tick hrun =>
      refine iff_of_true ?_ trivial
      unfold MainTask.tick
      split
      · exact hm.congr rfl rfl
      · exact hm
  | @recv d rest es _ hrun hrx hpath =>
      -- what was behind the message in the channel does not matter
      have hrest : MainTask.Configured { m with rx := rest } := hm.congr rfl rfl
      rw [MainTask.handleData_done hpath, MainTask.received_configured_iff hrest]
      show _ ↔ ∀ rs rest', m.rx = .relayServers rs :: rest' → rs ⊆ m.relayServers0
      rw [hrx]
      constructor
      · intro hd rs rest' hcons
        exact hd rs (List.cons.inj hcons).1
      · intro htimely rs hd
        exact htimely rs rest (by rw [hd])
  | datagram hrun hpath =>
      refine iff_of_true ?_ trivial
      obtain ⟨r, hudp, rfl⟩ := MainTask.handleDatagram_done hpath
      cases r with
      | ok rs => exact hm.congr ((handleUdp_served hudp).2.relayServers rs rfl) rfl
      | error _ => exact hm.congr rfl rfl
  | socketFailed hrun => exact iff_of_true (hm.congr rfl rfl) trivial
  | acceptFailed hrun hlistener => exact iff_of_true (hm.congr rfl rfl) trivial
  | recreate hfailure => exact iff_of_true (hm.congr rfl rfl) trivial
  | command rs => exact iff_of_true (hm.congr rfl rfl) trivial
  | queue msg addr => exact iff_of_true (hm.congr rfl rfl) trivial
  | probed ok hchecks hwaiting => exact iff_of_true (hm.congr rfl rfl) trivial
  | checked hchecks hwaiting => exact iff_of_true (hm.congr rfl rfl) trivial

end Steps

/-! ## Where results come from -/

/-- Every check that runs, and every result in the channel, has the servers
of a list that was configured at an earlier state of the run. -/
structure InFlight (log : List (MainTask × Act)) (m : MainTask) : Prop where
  checks : ∀ c ∈ m.checks, ∃ y ∈ log, c.rs0 = y.1.relayServers0
  rx : ∀ rs, .relayServers rs ∈ m.rx → ∃ y ∈ log, rs ⊆ y.1.relayServers0

section InFlight
variable {cfg : Config} {log : List (MainTask × Act)} {m m' : MainTask}

theorem InFlight.snoc (h : InFlight log m) (y : MainTask × Act)
    (hchecks : ∀ c ∈ m'.checks, c ∈ m.checks)
    (hrx : ∀ rs, .relayServers rs ∈ m'.rx → .relayServers rs ∈ m.rx) :
    InFlight (log ++ [y]) m' where
  checks c hc := by
    obtain ⟨z, hz, hrs0⟩ := h.checks c (hchecks c hc)
    exact ⟨z, List.mem_append_left _ hz, hrs0⟩
  rx rs hrs := by
    obtain ⟨z, hz, hsub⟩ := h.rx rs (hrx rs hrs)
    exact ⟨z, List.mem_append_left _ hz, hsub⟩

/-- A check is spawned on the list of the moment. -/
theorem InFlight.tick (h : InFlight log m) (a : Act) : InFlight (log ++ [(m, a)]) m.tick := by
  have hsame : InFlight (log ++ [(m, a)]) m := h.snoc _ (fun _ => id) fun _ => id
  unfold MainTask.tick
  split
  · refine ⟨fun c hc => ?_, hsame.rx⟩
    rcases List.mem_append.mp hc with hc | hc
    · exact hsame.checks c hc
    · rw [List.mem_singleton] at hc
      exact ⟨(m, a), by simp, by rw [hc]; rfl⟩
  · exact hsame

/-- A check that goes on keeps its list. -/
theorem InFlight.probed (h : InFlight log m) (y : MainTask × Act) {cs₁ cs₂ : List RelayCheck}
    {c c' : RelayCheck} (hchecks : m.checks = cs₁ ++ c :: cs₂) (hrs0 : c'.rs0 = c.rs0) :
    InFlight (log ++ [y]) { m with checks := cs₁ ++ c' :: cs₂ } := by
  have hsame : InFlight (log ++ [y]) m := h.snoc _ (fun _ => id) fun _ => id
  refine ⟨fun d hd => ?_, hsame.rx⟩
  rcases List.mem_append.mp hd with hd | hd
  · exact hsame.checks d (by simp [hchecks, hd])
  · rcases List.mem_cons.mp hd with rfl | hd
    · rw [hrs0]
      exact hsame.checks c (by simp [hchecks])
    · exact hsame.checks d (by simp [hchecks, hd])

/-- What a check reports is part of its list. -/
theorem InFlight.checked (h : InFlight log m) (y : MainTask × Act) {cs₁ cs₂ : List RelayCheck}
    {c : RelayCheck} (hchecks : m.checks = cs₁ ++ c :: cs₂) : InFlight (log ++ [y])
      { m with checks := cs₁ ++ cs₂, rx := m.rx ++ c.report.toList } := by
  have hsame : InFlight (log ++ [y]) m := h.snoc _ (fun _ => id) fun _ => id
  refine ⟨fun d hd => hsame.checks d ?_, fun rs hrs => ?_⟩
  · rw [hchecks]
    rcases List.mem_append.mp hd with hd | hd <;> simp [hd]
  · rcases List.mem_append.mp hrs with hrs | hrs
    · exact hsame.rx rs hrs
    · -- the list of the check is traced back already
      obtain ⟨z, hz, hrs0⟩ := hsame.checks c (by simp [hchecks])
      refine ⟨z, hz, ?_⟩
      rw [← hrs0]
      unfold RelayCheck.report at hrs
      split at hrs
      · cases hrs
      · rw [Option.toList_some, List.mem_singleton] at hrs
        cases hrs
        exact c.rs_sub

theorem InFlight.step {a : Act} (h : InFlight log m) (hstep : m.Step cfg a m') :
    InFlight (log ++ [(m, a)]) m' := by
  cases hstep with
  | tick hrun => exact h.tick .tick
  | @recv d rest es _ hrun hrx hpath =>
      rw [MainTask.handleData_done hpath]
      refine h.snoc _ (by simp) fun rs hrs => ?_
      rw [MainTask.received_rx] at hrs
      rw [hrx]
      exact List.mem_cons_of_mem _ hrs
  | datagram hrun hpath =>
      obtain ⟨r, -, rfl⟩ := MainTask.handleDatagram_done hpath
      cases r <;> exact h.snoc _ (fun _ => id) fun _ => id
  | socketFailed hrun => exact h.snoc _ (fun _ => id) fun _ => id
  | acceptFailed hrun hlistener => exact h.snoc _ (fun _ => id) fun _ => id
  | recreate hfailure => exact h.snoc _ (fun _ => id) fun _ => id
  | command rs => exact h.snoc _ (fun _ => id) (by simp)
  | queue msg addr => exact h.snoc _ (fun _ => id) (by simp)
  | probed ok hchecks hwaiting => exact h.probed _ hchecks rfl
  | checked hchecks hwaiting => exact h.checked _ hchecks

end InFlight

/-! ## Whole runs -/

section Runs
variable {cfg : Config} {rs : RendezvousServer} {relayServers : String}
  {log : List (MainTask × Act)} {m : MainTask}

theorem start_configured (x : External) (rs : RendezvousServer) (relayServers : String) :
    (MainTask.start x rs relayServers).Configured :=
  MainTask.configured_iff.mpr (List.Subset.refl _)

theorem inFlight_of_run
    (h : Logged (MainTask.Step cfg) (.start cfg.x rs relayServers) log m) : InFlight log m := by
  have hstart : InFlight [] (.start cfg.x rs relayServers) := ⟨nofun, nofun⟩
  apply h.invariant hstart
  intro log m a m' hm hstep
  exact hm.step hstep

/-- While no server is taken off the list, every result is still part of it. -/
theorem timely_of_growing
    (h : Logged (MainTask.Step cfg) (.start cfg.x rs relayServers) log m)
    (hgrow : ∀ log₁ y log₂, log = log₁ ++ y :: log₂ →
      ∀ z ∈ log₁, z.1.relayServers0 ⊆ y.1.relayServers0) : ∀ y ∈ log, Timely y := by
  intro y hy
  obtain ⟨log₁, log₂, hlog⟩ := List.append_of_mem hy
  obtain ⟨m₁, a⟩ := y
  cases a with
  | recv es =>
      intro rs' rest hrx
      have hmem : .relayServers rs' ∈ m₁.rx := by
        rw [show m₁.rx = _ from hrx]
        exact List.mem_cons_self
      obtain ⟨z, hz, hsub⟩ := (inFlight_of_run (h.cut hlog)).rx rs' hmem
      exact List.Subset.trans hsub (hgrow log₁ _ log₂ hlog z hz)
  | _ => trivial

/-- **Relay servers.** In every run of the main task, all states hand out
configured servers exactly if every result of a check that is taken from the
channel is, at that moment, part of the configured list. -/
theorem relayServers_configured_iff
    (h : Logged (MainTask.Step cfg) (.start cfg.x rs relayServers) log m) :
    Throughout MainTask.Configured log m ↔ ∀ y ∈ log, Timely y := by
  apply h.throughout_iff (start_configured cfg.x rs relayServers)
  intro y _ m' hm hstep
  exact hstep.configured_iff hm

end Runs

/-! ## A result that comes too late -/

def twoServers : Config := { x := .sample [] }

/-- A main task that is running, with these lists. -/
def lateMain (relayServers relayServers0 : List String) (rx : List Data)
    (checks : List RelayCheck) : MainTask :=
  { rs := { relayServers }, relayServers0, rx, checks }

/-- A check of two servers is spawned, they are replaced by a third, and then
the check reports the one of the two that it could reach. -/
theorem late_run :
    ∃ log, Logged (MainTask.Step twoServers) (.start twoServers.x {} "a,b") log
        (lateMain ["c"] ["c"] [.relayServers ["a"]] [])
      ∧ ∀ y ∈ log, Timely y := by
  let c : RelayCheck := .spawn ["a", "b"]
  have ha : "a" ∈ c.waiting := by decide
  let c₁ := c.probed "a" ha true
  have hb : "b" ∈ c₁.waiting := by
    show "b" ∈ ["a", "b"].erase "a"
    decide
  let c₂ := c₁.probed "b" hb false
  let ms : List (MainTask × Act) := [
    (lateMain ["a", "b"] ["a", "b"] [] [], .tick),
    (lateMain ["a", "b"] ["a", "b"] [] [c], .command "c"),
    (lateMain ["a", "b"] ["a", "b"] [.relayServers0 "c"] [c], .recv []),
    (lateMain ["c"] ["c"] [] [c], .probed "a" true),
    (lateMain ["c"] ["c"] [] [c₁], .probed "b" false),
    (lateMain ["c"] ["c"] [] [c₂], .checked)]
  refine ⟨ms, ?_, by simp [ms, Timely, lateMain]⟩
  have h0 : Logged (MainTask.Step twoServers) (.start twoServers.x {} "a,b") []
    (lateMain ["a", "b"] ["a", "b"] [] []) := .start
  have h3 := ((h0.step (.tick rfl)).step (.command "c")).step (.recv rfl rfl (.nil _))
  have h4 : Logged _ _ _ (lateMain ["c"] ["c"] [] [c₁]) :=
    h3.step (@MainTask.Step.probed _ _ [] c [] "a" true rfl ha)
  have h5 : Logged _ _ _ (lateMain ["c"] ["c"] [] [c₂]) :=
    h4.step (@MainTask.Step.probed _ _ [] c₁ [] "b" false rfl hb)
  exact h5.step (@MainTask.Step.checked _ _ [] c₂ [] rfl rfl)

/-- Up to here only configured servers are handed out. -/
theorem relayServers_configured_iff_late :
    ∃ log, Logged (MainTask.Step twoServers) (.start twoServers.x {} "a,b") log
        (lateMain ["c"] ["c"] [.relayServers ["a"]] [])
      ∧ Throughout MainTask.Configured log
        (lateMain ["c"] ["c"] [.relayServers ["a"]] []) := by
  obtain ⟨log, hrun, htimely⟩ := late_run
  exact ⟨log, hrun, (relayServers_configured_iff hrun).mpr htimely⟩

/-- The next step installs a server that is no longer configured, and with one
server on the list there is no check that would put it right. -/
theorem relayServers_unconfigured :
    ∃ log m, Logged (MainTask.Step twoServers) (.start twoServers.x {} "a,b") log m
      ∧ m.relayServers0 = ["c"] ∧ m.rs.getRelayServer = .done "a" ∧ m.tick = m := by
  obtain ⟨log, hrun, -⟩ := late_run
  exact ⟨_, _, hrun.step (.recv rfl rfl (.nil _)), rfl, rfl, rfl⟩

end KustDesk
