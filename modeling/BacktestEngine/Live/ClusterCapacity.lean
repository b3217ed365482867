import Mathlib.Data.Fintype.Defs
import BacktestEngine.Live.OrderChannel

/-! # Cluster capacity across channels

A check lock that has not lapsed keeps every other channel off the cluster, so a
channel that found room in a set still has it when the broker accepts. This rests
on two things the locks and sets do not give by themselves: a check or placement
ends before its lock lapses, and the set of a full cluster shows that it is full.
-/

namespace BacktestEngine

namespace Clusters

/-- The locks of a channel that is checking or placing, with the instants they were taken. -/
def ChannelStage.onTheWay : ChannelStage → List (String × ℤ)
  | .locking _ _ taken _ | .reading _ _ taken _ _ | .placing _ _ taken => taken
  | _ => []

/-- The cluster whose lock the channel tries next. -/
def ChannelStage.nextLock : ChannelStage → Option String
  | .locking _ _ _ toLock => toLock.head?
  | _ => none

/-- The cluster whose set the channel reads next. -/
def ChannelStage.nextRead : ChannelStage → Option String
  | .reading _ _ _ _ toRead => toRead.head?
  | _ => none

/-- The clusters whose sets have let the channel pass. -/
def ChannelStage.cleared : ChannelStage → List String
  | .reading _ _ _ passed _ => passed
  | .placing symbol _ _ => groupsFor symbol
  | _ => []

/-- The clusters the channel still has to lock, or has locked, are those of its symbol. -/
def ChannelStage.Shaped : ChannelStage → Prop
  | .locking symbol _ taken toLock => taken.map Prod.fst ++ toLock = groupsFor symbol
  | .reading symbol _ taken passed toRead =>
    taken.map Prod.fst = groupsFor symbol ∧ passed ++ toRead = groupsFor symbol
  | .placing symbol _ taken => taken.map Prod.fst = groupsFor symbol
  | _ => True

namespace ClusterState

variable {ι : Type} [DecidableEq ι]

/-- The open deals of a cluster. -/
def openIn (broker : List ClusterDeal) (cluster : String) : ℕ :=
  broker.countP fun deal => decide (cluster ∈ groupsFor deal.symbol)

variable (s : ClusterState ι)

/-- The lock that the channel is about to try is not one that another channel, still checking or
placing, has let lapse. -/
def NoneLapsed (i : ι) : Prop :=
  ∀ cluster ∈ (s.channels i).nextLock, ∀ j, j ≠ i → ∀ entry ∈ (s.channels j).onTheWay,
    entry.1 = cluster → s.now < entry.2 + checkLockTtl

/-- The set that the channel is about to read shows a full cluster as full. -/
def FullReadsFull (i : ι) : Prop :=
  ∀ cluster ∈ (s.channels i).nextRead, clusterLimit cluster ≤ openIn s.broker cluster →
    clusterLimit cluster ≤ (s.members cluster).length

/-- What a step asks of the state it starts from. -/
def Guarded : ClusterAction ι → Prop
  | .takeLock i _ => s.NoneLapsed i
  | .readSet i _ => s.FullReadsFull i
  | _ => True

instance [Fintype ι] : DecidablePred (Guarded s)
  | .takeLock i _ => inferInstanceAs (Decidable (∀ cluster ∈ (s.channels i).nextLock, ∀ j, j ≠ i →
      ∀ entry ∈ (s.channels j).onTheWay, entry.1 = cluster → s.now < entry.2 + checkLockTtl))
  | .readSet i _ => inferInstanceAs (Decidable (∀ cluster ∈ (s.channels i).nextRead,
      clusterLimit cluster ≤ openIn s.broker cluster →
        clusterLimit cluster ≤ (s.members cluster).length))
  | .advance _ | .request .. | .accept .. | .outcome .. | .markOpened .. | .brokerCloses _ |
    .fetch _ | .swap _ | .expire _ => isTrue trivial

/-- The locks of a channel on its way hold until they lapse, and what has let it pass has room. -/
structure Secured (now : ℤ) (locks : Expiring.Store String String ℤ) (broker : List ClusterDeal)
    (stage : ChannelStage) : Prop where
  shaped : stage.Shaped
  locked : ∀ entry ∈ stage.onTheWay, entry.2 ≤ now ∧
    ∃ symbol expiry, locks entry.1 = some (symbol, expiry) ∧ entry.2 + checkLockTtl ≤ expiry
  room : ∀ cluster ∈ stage.cleared, openIn broker cluster < clusterLimit cluster

structure Invariant (s : ClusterState ι) : Prop where
  secured : ∀ i, Secured s.now s.locks s.broker (s.channels i)
  exclusive : ∀ i j, i ≠ j → ∀ entry ∈ (s.channels i).onTheWay,
    ∀ entry' ∈ (s.channels j).onTheWay, entry.1 ≠ entry'.1
  capped : ∀ cluster, openIn s.broker cluster ≤ clusterLimit cluster

variable {s} {s' : ClusterState ι} {i j : ι} {stage : ChannelStage} {now now' : ℤ}
  {broker broker' : List ClusterDeal} {locks locks' : Expiring.Store String String ℤ}

/-- What is cleared is also locked. -/
theorem Secured.cleared_locked (h : Secured now locks broker stage) {cluster : String}
    (hc : cluster ∈ stage.cleared) : ∃ entry ∈ stage.onTheWay, entry.1 = cluster := by
  have hlocked : ∀ {taken : List (String × ℤ)} {symbol : String},
      taken.map Prod.fst = groupsFor symbol → cluster ∈ groupsFor symbol →
        ∃ entry ∈ taken, entry.1 = cluster := by
    intro taken symbol htaken hmem
    rw [← htaken] at hmem
    exact List.mem_map.mp hmem
  cases stage with
  | reading symbol strategyName taken passed toRead =>
    exact hlocked h.shaped.1 (h.shaped.2 ▸ List.mem_append_left _ hc)
  | placing symbol strategyName taken => exact hlocked h.shaped hc
  | idle | locking | landed | marking => cases hc

/-- A lock that a channel on its way has not let lapse is held. -/
theorem Secured.held (h : Secured now locks broker stage) {entry : String × ℤ}
    (hentry : entry ∈ stage.onTheWay) (hlt : now < entry.2 + checkLockTtl) :
    locks.Held now entry.1 := by
  obtain ⟨-, symbol, expiry, hlock, hle⟩ := h.locked entry hentry
  exact Expiring.Store.held_iff.mpr ⟨symbol, expiry, hlock, hlt.trans_le hle⟩

/-- Time goes on and deals are closed. -/
theorem Secured.later (h : Secured now locks broker stage) (hle : now ≤ now')
    (hb : broker'.Sublist broker) : Secured now' locks broker' stage where
  shaped := h.shaped
  locked entry hentry := ⟨(h.locked entry hentry).1.trans hle, (h.locked entry hentry).2⟩
  room cluster hc := lt_of_le_of_lt hb.countP_le (h.room cluster hc)

/-- Writing a lock that none of its own is, or writing it for long enough, secures it still. -/
theorem Secured.set (h : Secured now locks broker stage) {cluster symbol : String} {expiry : ℤ}
    (hlong : ∀ entry ∈ stage.onTheWay, entry.1 = cluster → entry.2 + checkLockTtl ≤ expiry) :
    Secured now (locks.set cluster symbol expiry) broker stage where
  shaped := h.shaped
  locked entry hentry := by
    refine ⟨(h.locked entry hentry).1, ?_⟩
    by_cases he : entry.1 = cluster
    · exact ⟨symbol, expiry, by rw [he, Expiring.Store.set, Function.update_self],
        hlong entry hentry he⟩
    · rw [Expiring.Store.set, Function.update_of_ne he]
      exact (h.locked entry hentry).2
  room := h.room

/-- A channel at rest needs nothing. -/
theorem Secured.rest (hway : stage.onTheWay = []) (hclear : stage.cleared = [])
    (hshape : stage.Shaped) : Secured now locks broker stage where
  shaped := hshape
  locked entry hentry := by rw [hway] at hentry; cases hentry
  room cluster hc := by rw [hclear] at hc; cases hc

/-- A channel moves to a secured stage and takes no lock it did not have. -/
theorem Invariant.goTo (h : Invariant s) (hs : Secured s.now s.locks s.broker stage)
    (hway : ∀ entry ∈ stage.onTheWay, entry ∈ (s.channels i).onTheWay) :
    Invariant (s.goTo i stage) where
  secured j := by
    by_cases hj : j = i
    · subst hj
      simpa only [ClusterState.goTo, Function.update_self] using hs
    · simpa only [ClusterState.goTo, Function.update_of_ne hj] using h.secured j
  exclusive j k hjk entry hentry entry' hentry' := by
    have hkeep : ∀ {l : ι} {e : String × ℤ}, e ∈ ((s.goTo i stage).channels l).onTheWay →
        e ∈ (s.channels l).onTheWay := by
      intro l e he
      by_cases hl : l = i
      · subst hl
        simp only [ClusterState.goTo, Function.update_self] at he
        exact hway e he
      · simpa only [ClusterState.goTo, Function.update_of_ne hl] using he
    exact h.exclusive j k hjk entry (hkeep hentry) entry' (hkeep hentry')
  capped := h.capped

theorem Invariant.idle (h : Invariant s) : Invariant (s.goTo i .idle) :=
  h.goTo (.rest rfl rfl trivial) fun _ he => by cases he

/-! ## The stages after a lock, a set and a mark -/

theorem afterLock_onTheWay (symbol strategyName : String) (taken : List (String × ℤ))
    (toLock : List String) : (afterLock symbol strategyName taken toLock).onTheWay = taken := by
  cases toLock <;> rfl

theorem afterLock_cleared (symbol strategyName : String) (taken : List (String × ℤ))
    (toLock : List String) : (afterLock symbol strategyName taken toLock).cleared = [] := by
  cases toLock <;> rfl

theorem afterLock_shaped {symbol strategyName : String} {taken : List (String × ℤ)}
    {toLock : List String} (h : taken.map Prod.fst ++ toLock = groupsFor symbol) :
    (afterLock symbol strategyName taken toLock).Shaped := by
  cases toLock with
  | nil => exact ⟨by simpa using h, rfl⟩
  | cons cluster toLock => exact h

theorem afterRead_onTheWay (symbol strategyName : String) (taken : List (String × ℤ))
    (passed toRead : List String) :
    (afterRead symbol strategyName taken passed toRead).onTheWay = taken := by
  cases toRead <;> rfl

theorem afterRead_cleared {symbol strategyName : String} {taken : List (String × ℤ)}
    {passed toRead : List String} (h : passed ++ toRead = groupsFor symbol) :
    (afterRead symbol strategyName taken passed toRead).cleared = passed := by
  cases toRead with
  | nil => simpa [afterRead, ChannelStage.cleared] using h.symm
  | cons cluster toRead => rfl

theorem afterRead_shaped {symbol strategyName : String} {taken : List (String × ℤ)}
    {passed toRead : List String} (htaken : taken.map Prod.fst = groupsFor symbol)
    (h : passed ++ toRead = groupsFor symbol) :
    (afterRead symbol strategyName taken passed toRead).Shaped := by
  cases toRead with
  | nil => exact htaken
  | cons cluster toRead => exact ⟨htaken, h⟩

theorem afterMark_onTheWay (symbol : String) (toMark : List String) :
    (afterMark symbol toMark).onTheWay = [] := by
  cases toMark <;> rfl

theorem afterMark_secured (symbol : String) (toMark : List String) :
    Secured now locks broker (afterMark symbol toMark) := by
  cases toMark <;> exact .rest rfl rfl trivial

/-! ## One step -/

/-- A channel takes a lock: no other channel on its way has it. -/
theorem Invariant.takeLock (h : Invariant s) (hg : s.NoneLapsed i) (reached : Bool)
    (hstep : s.step (.takeLock i reached) = some s') : Invariant s' := by
  simp only [step] at hstep
  split at hstep
  · rename_i symbol strategyName taken cluster toLock hstage
    split at hstep
    · cases hstep
      exact h.idle
    · rename_i hfree
      cases hstep
      have hi := h.secured i
      rw [hstage] at hi
      have hfirst := hg cluster (by rw [hstage]; rfl)
      have hother : ∀ j, j ≠ i → ∀ entry ∈ (s.channels j).onTheWay, entry.1 ≠ cluster := by
        intro j hj entry hentry he
        have hheld := (h.secured j).held hentry (hfirst j hj entry hentry he)
        rw [he] at hheld
        exact hfree (by simp [hheld])
      have hself : Secured s.now (s.locks.set cluster symbol (s.now + checkLockTtl)) s.broker
          (afterLock symbol strategyName (taken ++ [(cluster, s.now)]) toLock) := by
        refine ⟨afterLock_shaped ?_, ?_, ?_⟩
        · rw [List.map_append, List.append_assoc]
          exact hi.shaped
        · rw [afterLock_onTheWay]
          intro entry hentry
          rcases List.mem_append.mp hentry with hentry | hentry
          · exact (hi.set fun e he _ => Int.add_le_add_right (hi.locked e he).1 _).locked entry hentry
          · rw [List.mem_singleton.mp hentry]
            exact ⟨le_rfl, symbol, _, Function.update_self .., le_rfl⟩
        · rw [afterLock_cleared]
          exact fun _ hc => by cases hc
      refine ⟨fun j => ?_, fun j k hjk entry hentry entry' hentry' => ?_, h.capped⟩
      · by_cases hj : j = i
        · subst hj
          simpa only [ClusterState.goTo, Function.update_self] using hself
        · simp only [ClusterState.goTo, Function.update_of_ne hj]
          exact (h.secured j).set fun entry hentry he => absurd he (hother j hj entry hentry)
      · have hway : ∀ l (e : String × ℤ), e ∈ (Function.update s.channels i (afterLock symbol
            strategyName (taken ++ [(cluster, s.now)]) toLock) l).onTheWay →
            e ∈ (s.channels l).onTheWay ∨ l = i ∧ e.1 = cluster := by
          intro l e he
          by_cases hl : l = i
          · subst hl
            rw [Function.update_self, afterLock_onTheWay] at he
            rcases List.mem_append.mp he with he | he
            · exact .inl (hstage ▸ he)
            · rw [List.mem_singleton.mp he]
              exact .inr ⟨rfl, rfl⟩
          · rw [Function.update_of_ne hl] at he
            exact .inl he
        rcases hway j entry hentry with he | ⟨rfl, hc⟩
        · rcases hway k entry' hentry' with he' | ⟨rfl, hc'⟩
          · exact h.exclusive j k hjk entry he entry' he'
          · rw [hc']
            exact hother j hjk entry he
        · rcases hway k entry' hentry' with he' | ⟨rfl, -⟩
          · rw [hc]
            exact (hother k (Ne.symm hjk) entry' he').symm
          · exact absurd rfl hjk
  · cases hstep

/-- A set that lets the channel pass has room for its deal. -/
theorem Invariant.readSet (h : Invariant s) (hg : s.FullReadsFull i) (reached : Bool)
    (hstep : s.step (.readSet i reached) = some s') : Invariant s' := by
  simp only [step] at hstep
  split at hstep
  · rename_i symbol strategyName taken passed cluster toRead hstage
    split at hstep
    · rename_i hpass
      cases hstep
      have hi := h.secured i
      rw [hstage] at hi
      have hfirst := hg cluster (by rw [hstage]; rfl)
      have hroom : openIn s.broker cluster < clusterLimit cluster :=
        not_le.mp fun hfull => absurd (length_lt_of_allowed hpass.2) (not_lt.mpr (hfirst hfull))
      have hshape : (passed ++ [cluster]) ++ toRead = groupsFor symbol := by
        rw [List.append_assoc]
        exact hi.shaped.2
      refine h.goTo ⟨afterRead_shaped hi.shaped.1 hshape, ?_, ?_⟩ ?_
      · rw [afterRead_onTheWay]
        exact hi.locked
      · rw [afterRead_cleared hshape]
        intro c hc
        rcases List.mem_append.mp hc with hc | hc
        · exact hi.room c hc
        · rw [List.mem_singleton.mp hc]
          exact hroom
      · rw [afterRead_onTheWay, hstage]
        exact fun _ he => he
    · cases hstep
      exact h.idle
  · cases hstep

theorem openIn_snoc (broker : List ClusterDeal) (deal : ClusterDeal) (cluster : String) :
    openIn (broker ++ [deal]) cluster =
      openIn broker cluster + if cluster ∈ groupsFor deal.symbol then 1 else 0 := by
  simp [openIn, List.countP_append, List.countP_singleton]

/-- The broker accepts: the channel's own clusters have room, and no other channel on its way
counts on them. -/
theorem Invariant.accept (h : Invariant s) (dealReference : String)
    (hstep : s.step (.accept i dealReference) = some s') : Invariant s' := by
  simp only [step] at hstep
  split at hstep
  · rename_i symbol strategyName taken hstage
    cases hstep
    have hi := h.secured i
    rw [hstage] at hi
    have hland : ∀ l, l ≠ i → ∀ cluster ∈ (s.channels l).cleared, cluster ∉ groupsFor symbol := by
      intro l hl cluster hc hmem
      obtain ⟨entry, hentry, he⟩ := (h.secured l).cleared_locked hc
      have hown : cluster ∈ (ChannelStage.placing symbol strategyName taken).cleared := hmem
      obtain ⟨entry', hentry', he'⟩ := hi.cleared_locked hown
      exact h.exclusive l i hl entry hentry entry' (hstage ▸ hentry') (he.trans he'.symm)
    refine ⟨fun j => ?_, fun j k hjk entry hentry entry' hentry' => ?_, fun cluster => ?_⟩
    · by_cases hj : j = i
      · subst hj
        simp only [ClusterState.goTo, Function.update_self]
        exact .rest rfl rfl trivial
      · simp only [ClusterState.goTo, Function.update_of_ne hj]
        refine ⟨(h.secured j).shaped, (h.secured j).locked, fun cluster hc => ?_⟩
        rw [openIn_snoc, if_neg (hland j hj cluster hc)]
        exact (h.secured j).room cluster hc
    · have hkeep : ∀ l (e : String × ℤ), e ∈ (Function.update s.channels i
          (.landed symbol) l).onTheWay → e ∈ (s.channels l).onTheWay := by
        intro l e he
        by_cases hl : l = i
        · subst hl
          rw [Function.update_self] at he
          cases he
        · rwa [Function.update_of_ne hl] at he
      exact h.exclusive j k hjk entry (hkeep j entry hentry) entry' (hkeep k entry' hentry')
    · rw [show (({ s with broker := s.broker ++ [⟨symbol, strategyName, dealReference⟩] } :
        ClusterState ι).goTo i (.landed symbol)).broker =
          s.broker ++ [⟨symbol, strategyName, dealReference⟩] from rfl, openIn_snoc]
      split
      · exact hi.room cluster ‹_›
      · exact h.capped cluster
  · cases hstep

theorem Invariant.markOpened (h : Invariant s) (reached : Bool)
    (hstep : s.step (.markOpened i reached) = some s') : Invariant s' := by
  simp only [step] at hstep
  split at hstep
  · rename_i symbol cluster toMark hstage
    cases hstep
    have hlocks : ∀ j, Secured s.now
        (if reached then s.locks.set cluster symbol (s.now + openedTtl) else s.locks) s.broker
        (s.channels j) := by
      intro j
      split
      · refine (h.secured j).set fun entry hentry _ => ?_
        have := ((h.secured j).locked entry hentry).1
        simp only [checkLockTtl, openedTtl, second]
        omega
      · exact h.secured j
    let locks := if reached then s.locks.set cluster symbol (s.now + openedTtl) else s.locks
    have hmarked : Invariant { s with locks := locks } := ⟨hlocks, h.exclusive, h.capped⟩
    refine hmarked.goTo (afterMark_secured symbol toMark) fun e he => ?_
    rw [afterMark_onTheWay] at he
    cases he
  · cases hstep

theorem Invariant.request (h : Invariant s) (symbol strategyName : String)
    (hstep : s.step (.request i symbol strategyName) = some s') : Invariant s' := by
  simp only [step] at hstep
  split at hstep
  · split at hstep
    · cases hstep
      exact h
    · cases hstep
      refine h.goTo ⟨rfl, fun _ he => ?_, fun _ hc => ?_⟩ fun _ he => ?_
      · cases he
      · cases hc
      · cases he
  · cases hstep

theorem Invariant.outcome (h : Invariant s) (status : OpenStatus)
    (hstep : s.step (.outcome i status) = some s') : Invariant s' := by
  simp only [step] at hstep
  split at hstep
  · cases hstep
    exact h.idle
  · cases hstep
    exact h.idle
  · cases hstep
    refine h.goTo (afterMark_secured _ _) fun e he => ?_
    rw [afterMark_onTheWay] at he
    cases he
  · cases hstep
    exact h.idle
  · cases hstep

/-- A guarded step keeps the invariant. -/
theorem step_invariant {action : ClusterAction ι} (h : Invariant s) (hg : s.Guarded action)
    (hstep : s.step action = some s') : Invariant s' := by
  cases action with
  | advance elapsed =>
    cases hstep
    have hle : s.now ≤ s.now + elapsed := by omega
    exact ⟨fun i => (h.secured i).later hle (List.Sublist.refl _), h.exclusive, h.capped⟩
  | request i symbol strategyName => exact h.request symbol strategyName hstep
  | takeLock i reached => exact h.takeLock hg reached hstep
  | readSet i reached => exact h.readSet hg reached hstep
  | accept i dealReference => exact h.accept dealReference hstep
  | outcome i status => exact h.outcome status hstep
  | markOpened i reached => exact h.markOpened reached hstep
  | brokerCloses dealReference =>
    cases hstep
    exact ⟨fun i => (h.secured i).later le_rfl List.filter_sublist, h.exclusive,
      fun cluster => List.filter_sublist.countP_le.trans (h.capped cluster)⟩
  | fetch others =>
    simp only [step] at hstep
    split at hstep <;> cases hstep
    exact ⟨h.secured, h.exclusive, h.capped⟩
  | swap reached =>
    simp only [step] at hstep
    split at hstep
    · cases hstep
      exact ⟨h.secured, h.exclusive, h.capped⟩
    · split at hstep <;> cases hstep <;> exact ⟨h.secured, h.exclusive, h.capped⟩
    · cases hstep
  | expire reached =>
    simp only [step] at hstep
    split at hstep <;> cases hstep
    exact ⟨h.secured, h.exclusive, h.capped⟩

/-! ## Runs -/

omit [DecidableEq ι] in
theorem fresh_invariant (now : ℤ) {broker : List ClusterDeal}
    (locks : Expiring.Store String String ℤ)
    (sets : Expiring.Store String (List String) (WithTop ℤ))
    (hcap : ∀ cluster, openIn broker cluster ≤ clusterLimit cluster) :
    Invariant (fresh now broker locks sets : ClusterState ι) where
  secured _ := .rest rfl rfl trivial
  exclusive _ _ _ entry he := by cases he
  capped := hcap

/-- A channel checks a symbol of a single cluster. -/
def checkActions (i : ι) (symbol strategyName : String) : List (ClusterAction ι) :=
  [.request i symbol strategyName, .takeLock i true, .readSet i true]

end ClusterState

end Clusters

end BacktestEngine
