import PartlyProxy.Accounting
import PartlyProxy.Linearization

namespace PartlyProxy
variable {deps : Deps} {σ : Type}

/-- What the proxy itself records: the exchange of a request to an upstream of the cluster. -/
structure LiveExchange (deps : Deps) (reg : UpstreamRegistry) (e : RecordedExchange) : Prop where
  upstream : ∃ rt ∈ reg.upstreams, e.upstream = some rt.name
  unlabelled : e.labels = .empty
  hashed : e.request.bodySha256 = deps.sha256Hex e.request.body
  status : ∀ resp, e.outcome = .response resp → 100 ≤ resp.status.toNat ∧ resp.status.toNat ≤ 999

section Offers
variable {reg : UpstreamRegistry} {rt : UpstreamRuntime}

theorem liveExchange_new (known : rt ∈ reg.upstreams) (req : ProxyRequest) {outcome : ExchangeOutcome} (stamp : Stamp)
    (valid : ∀ resp, outcome = .response resp → 100 ≤ resp.status.toNat ∧ resp.status.toNat ≤ 999) :
    LiveExchange deps reg (.new (some rt.name) (.fromParts deps req) outcome stamp) where
  upstream := ⟨rt, known, rfl⟩
  unlabelled := rfl
  hashed := rfl
  status := valid

theorem liveExchange_of_offered (known : rt ∈ reg.upstreams) {stamp : Stamp} {original : ProxyRequest} {outcome : Outcome}
    {source : Option ResponseSource} {e : RecordedExchange}
    (offer : offered deps rt stamp original outcome source = some e) : LiveExchange deps reg e := by
  unfold offered at offer
  split at offer
  · cases offer
  · split at offer
    · rename_i resp
      split at offer
      · cases offer
      · cases offer
        refine liveExchange_new known _ stamp fun recorded same => ?_
        cases same
        have small : (redactResponse rt.middleware resp).status.asU16 < UInt16.size :=
          Nat.lt_of_le_of_lt (redactResponse rt.middleware resp).status.upper (by decide)
        simp only [RecordedResponse.fromParts, UInt16.toNat_ofNat_of_lt' small]
        exact ⟨(redactResponse rt.middleware resp).status.lower, (redactResponse rt.middleware resp).status.upper⟩
    · cases offer
      exact liveExchange_new known _ stamp (by simp)

theorem mem_pushRing {cap : Nat} {buffer : List RecordedExchange} {e e' : RecordedExchange} (positive : cap ≠ 0)
    (member : e' ∈ pushRing cap buffer e) : e' ∈ buffer ∨ e' = e := by
  have inBoth := (pushRing_suffix positive buffer e).mem member
  simpa using inBoth

end Offers

/-- The ring, and what is about to be recorded, is live. -/
structure LiveCluster (reg : UpstreamRegistry) (c : Cluster deps σ) : Prop where
  ring : ∀ e ∈ c.recorder.buffer, LiveExchange deps reg e
  pending : ∀ u i outcome source e, c.phase u i = .handling (.recording outcome source e) → LiveExchange deps reg e

section Run
variable {storage : SnapshotStorage σ} {reg : UpstreamRegistry} {arrivals : String → Nat → Arrival} {c c' : Cluster deps σ}

theorem LiveCluster.setPhase (live : LiveCluster reg c) {u : String} {i : Nat} {p : RequestPhase}
    (ring : ∀ e ∈ c'.recorder.buffer, LiveExchange deps reg e) (phase : c'.phase = (c.setPhase u i p).phase)
    (pending : ∀ outcome source e, p = .handling (.recording outcome source e) → LiveExchange deps reg e) :
    LiveCluster reg c' where
  ring := ring
  pending v j outcome source e at_ := by
    rw [phase] at at_
    by_cases mine : (v, j) = (u, i)
    · cases mine
      rw [Cluster.setPhase_self] at at_
      exact pending outcome source e at_
    · rw [Cluster.setPhase_other c mine] at at_
      exact live.pending v j outcome source e at_

theorem LiveCluster.step (live : LiveCluster reg c) {move : ClusterMove}
    (steps : Cluster.Stepped storage reg arrivals c move c') : LiveCluster reg c' := by
  cases steps with
  | unknown => exact live
  | gate => exact live.setPhase live.ring rfl (by simp)
  | enter => exact live.setPhase live.ring rfl (by simp)
  | @handle u i p rt found at_ =>
    have known : rt ∈ reg.upstreams := List.mem_of_find?_eq_some found
    refine live.setPhase ?_ rfl ?_
    · intro e member
      rcases c.handle_buffer storage rt (arrivals u i) u i p with ⟨same, _⟩ | ⟨pushed, isPushed, room, pushes⟩
      · exact live.ring e (same ▸ member)
      · rw [pushes] at member
        rcases mem_pushRing room member with old | rfl
        · exact live.ring e old
        · -- What is pushed was about to be recorded.
          cases p with
          | recording outcome source e' =>
            simp only [Cluster.pushed] at isPushed
            split at isPushed
            · cases isPushed
              exact live.pending u i _ _ _ at_
            · cases isPushed
          | _ => cases isPushed
    · intro outcome source e next
      obtain ⟨_, offer⟩ := advance_eq_recording storage rt (arrivals u i) (c.shared u) (RequestPhase.handling.inj next)
      exact liveExchange_of_offered known offer
  | @command cmd =>
    refine ⟨fun e member => ?_, live.pending⟩
    rcases dispatch_buffer reg cmd (c := c.toClusterState) with same | empty
    · exact live.ring e (same ▸ member)
    · have member : e ∈ (dispatch reg c.toClusterState cmd).2.recorder.buffer := member
      rw [empty] at member
      cases member

theorem LiveCluster.atomic (live : LiveCluster reg c) (atom : Atomic) :
    LiveCluster reg (atom.step storage reg arrivals c) := by
  cases atom with
  | request u i => exact live.step (Cluster.stepped storage reg arrivals c (.request u i))
  | command p n cmd => exact live.step (Cluster.stepped storage reg arrivals c (.command cmd))
  | unblock u => exact ⟨live.ring, live.pending⟩

variable (storage arrivals) in
theorem live_run (fromStr : String → Except String WireCommand) {s : ClusterState deps σ} (empty : s.recorder.buffer = [])
    (moves : List ControlMove) :
    LiveCluster reg (ControlPlane.run storage reg arrivals fromStr s moves).cluster := by
  refine Execution.exec_invariant (ControlPlane.step storage reg arrivals fromStr)
    (I := fun c => LiveCluster reg c.cluster) ?_ ?_ moves
  · intro c move live
    rw [ControlPlane.cluster_step]
    exact Execution.exec_invariant (Atomic.step storage reg arrivals) (fun _ atom live => live.atomic atom) live _
  · refine ⟨fun e member => ?_, fun u i outcome source e at_ => ?_⟩
    · have member : e ∈ s.recorder.buffer := member
      rw [empty] at member
      cases member
    · cases at_

end Run

section Filters
variable {reg : UpstreamRegistry}

theorem unlabelled_lookup {labels : Labels} (some_ : labels ≠ .empty) {e : RecordedExchange} (unlabelled : e.labels = .empty) :
    (labels.entries.all fun label => e.labels.entries.lookup label.1 == some label.2) = false := by
  obtain ⟨entries, sorted⟩ := labels
  cases entries with
  | nil => exact absurd rfl some_
  | cons label rest => simp [unlabelled, Labels.empty]

/-- A filter that names a label, or an upstream that the cluster does not have, finds
nothing of what the proxy records. -/
theorem not_matches_live {filter : TrafficFilter}
    (off : filter.labels ≠ .empty ∨ ∃ name, filter.upstream = some name ∧ reg.get name = none) {e : RecordedExchange}
    (live : LiveExchange deps reg e) : filter.matches deps e = false := by
  rcases off with labelled | ⟨name, wanted, unknown⟩
  · simp [TrafficFilter.matches, unlabelled_lookup labelled live.unlabelled]
  · obtain ⟨rt, known, isUpstream⟩ := live.upstream
    have apart : rt.name ≠ name := by
      rintro rfl
      have absent := List.find?_eq_none.mp unknown rt known
      simp at absent
    simp [TrafficFilter.matches, wanted, isUpstream, apart]

end Filters

/-- Whatever happens to a cluster with its control plane: what its ring holds is valid and
of one of its upstreams, and nobody can query or assert on labels, which the proxy never
sets, or on an upstream that is not there. -/
theorem live_traffic (storage : SnapshotStorage σ) (reg : UpstreamRegistry) (arrivals : String → Nat → Arrival)
    (fromStr : String → Except String WireCommand) (s : ClusterState deps σ) (empty : s.recorder.buffer = [])
    (moves : List ControlMove) :
    let c := (ControlPlane.run storage reg arrivals fromStr s moves).cluster
    (∀ e ∈ c.recorder.buffer, LiveExchange deps reg e) ∧
      ∀ filter : TrafficFilter,
        (filter.labels ≠ .empty ∨ ∃ name, filter.upstream = some name ∧ reg.get name = none) →
        (dispatch reg c.toClusterState (.queryTraffic filter)).1 = .reply (.exchanges []) ∧
          countMatching (filter.matches deps) c.recorder.buffer = 0 := by
  intro c
  have live : LiveCluster reg c := live_run storage arrivals fromStr empty moves
  refine ⟨live.ring, fun filter off => ?_⟩
  have none_ : c.recorder.buffer.filter (filter.matches deps) = [] := by
    refine List.filter_eq_nil_iff.mpr fun e member => ?_
    simp [not_matches_live off (live.ring e member)]
  exact ⟨by simp only [dispatch, none_], by rw [countMatching, none_, List.length_nil]⟩

/-- A request fails and is recorded: nobody finds it under a label. -/
theorem live_traffic_labelled :
    let labels := Labels.empty.insert "suite" "smoke"
    let c := (ControlPlane.run inMemoryStorage (Cluster.referenceRegistry [Cluster.failing])
      (fun _ _ => Cluster.posted .http11) (fun _ => .error "") (Cluster.emptyState referenceDeps fun _ => [])
      (List.replicate 5 (.request "api" 0))).cluster
    c.recorder.buffer.length = 1 ∧
      (dispatch (Cluster.referenceRegistry [Cluster.failing]) c.toClusterState
        (.queryTraffic { TrafficFilter.new with labels := labels })).1 = .reply (.exchanges []) := by
  intro labels c
  refine ⟨rfl, ?_⟩
  · have live := live_traffic inMemoryStorage (Cluster.referenceRegistry [Cluster.failing])
      (fun _ _ => Cluster.posted .http11) (fun _ => .error "") (Cluster.emptyState referenceDeps fun _ => []) rfl
      (List.replicate 5 (.request "api" 0))
    have some_ : labels ≠ .empty := by simp [labels, Labels.insert, Labels.insertEntry, Labels.empty]
    exact (live.2 { TrafficFilter.new with labels := labels } (Or.inl some_)).1

end PartlyProxy
