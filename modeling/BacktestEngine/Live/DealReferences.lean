import BacktestEngine.Live.PlacementExclusion
import BacktestEngine.Live.PositionWire

/-! # Deal references

The reference of a placement is made of its strategy, its side and the millisecond of its
tick, and names the deal from then on. The trade lock, which runs on the clock on the wall,
is what keeps two placements of a strategy and a side apart.
-/

namespace BacktestEngine

namespace Live

/-! ## What a reference tells -/

/-- The characters that a reference has of its strategy. -/
def uuidPrefix (strategyUuid : String) : List Char :=
  (strategyUuid.toList.filter isAlphanumeric).take 8

/-- A placement on its way to the broker. -/
structure Attempt where
  strategyUuid : String
  direction : Direction
  timestamp : ℤ
  deriving DecidableEq

namespace Attempt

def reference (a : Attempt) : String := makeDealReference a.strategyUuid a.direction a.timestamp

/-- One strategy and side, and ticks of one millisecond. -/
def SameSlot (a b : Attempt) : Prop :=
  a.strategyUuid = b.strategyUuid ∧ a.direction = b.direction ∧
    a.timestamp.tdiv 1000 = b.timestamp.tdiv 1000

theorem SameSlot.symm {a b : Attempt} (h : a.SameSlot b) : b.SameSlot a :=
  ⟨h.1.symm, h.2.1.symm, h.2.2.symm⟩

instance : DecidableRel SameSlot := fun _ _ => inferInstanceAs (Decidable (_ ∧ _ ∧ _))

def side : Direction → Char
  | .long => 'L'
  | .short => 'S'

theorem side_injective {d d' : Direction} (h : side d = side d') : d = d' := by
  cases d <;> cases d' <;> first | rfl | cases h

theorem uuidPrefix_chars {strategyUuid : String} : ∀ c ∈ uuidPrefix strategyUuid, c ≠ '-' := by
  rintro c hc rfl
  have halphanumeric := (List.mem_filter.mp (List.mem_of_mem_take hc)).2
  revert halphanumeric
  decide

theorem reference_toList (a : Attempt) : a.reference.toList =
    uuidPrefix a.strategyUuid ++ '-' :: side a.direction ::
      (toString (a.timestamp.tdiv 1000)).toList := by
  obtain ⟨strategyUuid, direction, timestamp⟩ := a
  cases direction <;>
    simp [reference, makeDealReference, uuidPrefix, side]

/-- The strategy's characters end at the hyphen, and the side is one character. -/
theorem reference_eq_iff {a b : Attempt} : a.reference = b.reference ↔
    uuidPrefix a.strategyUuid = uuidPrefix b.strategyUuid ∧ a.direction = b.direction ∧
      a.timestamp.tdiv 1000 = b.timestamp.tdiv 1000 := by
  rw [← String.toList_inj, reference_toList, reference_toList]
  constructor
  · intro h
    obtain ⟨huuid, -, htail⟩ := FlatObject.span_unique uuidPrefix_chars uuidPrefix_chars
      (not_not.mpr rfl) (not_not.mpr rfl) h
    obtain ⟨hside, htime⟩ := List.cons.inj htail
    exact ⟨huuid, side_injective hside, Int.repr_injective (String.toList_inj.mp htime)⟩
  · rintro ⟨huuid, hdirection, htime⟩
    rw [huuid, hdirection, htime]

end Attempt

/-! ## Workers that mint references -/

def directionName : Direction → String
  | .long => "LONG"
  | .short => "SHORT"

/-- What each worker last decided, at which tick, and the placements the broker was handed. -/
structure MintState (κ : Type) where
  flight : FlightState κ
  decided : κ → Direction × ℤ
  handed : List Attempt

/-- A worker decides on a tick, or goes on with what it has decided. -/
inductive MintAction (κ : Type)
  | signal (k : κ) (direction : Direction) (timestamp : ℤ)
  | goOn (action : FlightAction κ)

namespace MintState

variable {κ : Type} [DecidableEq κ] (cfg : FlightConfig κ) (uuid : κ → String)

omit [DecidableEq κ] in
/-- The placement that a worker's last decision leads to. -/
def attempt (s : MintState κ) (k : κ) : Attempt where
  strategyUuid := uuid k
  direction := (s.decided k).1
  timestamp := (s.decided k).2

/-- The broker is handed a placement when the lock has been extended for it. -/
def step (s : MintState κ) : MintAction κ → Option (MintState κ)
  | .signal k direction timestamp =>
    (s.flight.step cfg (.signal k (uuid k) (directionName direction))).map fun flight =>
      { s with flight, decided := Function.update s.decided k (direction, timestamp) }
  | .goOn (.signal ..) => none
  | .goOn (.extendReply k) =>
    (s.flight.step cfg (.extendReply k)).map fun flight =>
      { s with flight, handed := s.handed ++ [s.attempt uuid k] }
  | .goOn action => (s.flight.step cfg action).map fun flight => { s with flight }

/-- Workers that have just started have handed the broker nothing. -/
def fresh (now : ℤ) (redis : Expiring.Store String String ℤ) : MintState κ where
  flight := .fresh now redis
  decided _ := (.long, 0)
  handed := []

end MintState

/-- A worker has passed the gate, and its placement is still to be handed to the broker. -/
def FlightStage.OnWay : FlightStage → Prop
  | .checking .. | .extending .. => True
  | _ => False

namespace FlightState

variable {κ : Type} [DecidableEq κ] {cfg : FlightConfig κ} {s s' : FlightState κ}

/-- The lock that the worker's gate has asked for is there to be taken. -/
def GateFree (s : FlightState κ) (k : κ) : Prop :=
  ∃ key start ttl, s.locks.calls (k, .gate) = .checking key start ttl ∧
    ¬ s.locks.redis.Held s.locks.now key

theorem goTo_self {k : κ} {locks : LockState (κ × LockRole)} {stage : FlightStage} :
    (s.goTo k locks stage).workers k = stage := Function.update_self ..

theorem goTo_other {k j : κ} (hj : j ≠ k) {locks : LockState (κ × LockRole)}
    {stage : FlightStage} : (s.goTo k locks stage).workers j = s.workers j :=
  Function.update_of_ne hj ..

/-- A gate that answers free has found the lock free. -/
theorem gateFree_of_answer {k : κ} {locks : LockState (κ × LockRole)}
    {answer : LockAnswer (κ × LockRole)}
    (h : s.locks.transition cfg.owner (.setIfNotExists (k, .gate) .answered) =
      some (locks, some answer)) (hfree : answer.locked = false) : s.GateFree k := by
  cases hcall : s.locks.calls (k, .gate) with
  | checking key start ttl =>
    obtain ⟨-, -, -, hanswer⟩ := LockState.setIfNotExists_cases hcall h
    refine ⟨key, start, ttl, hcall, fun hheld => ?_⟩
    rw [if_neg (fun hand => hand.2 hheld)] at hanswer
    cases hanswer
    cases hfree
  | idle | extending | releasing =>
    simp only [LockState.transition, hcall] at h
    cases h

theorem signal_locked {k : κ} {strategyUuid direction : String} {locks : LockState (κ × LockRole)}
    {answer : LockAnswer (κ × LockRole)}
    (h : s.locks.transition cfg.owner
      (.isThereATradeLock (k, .gate) strategyUuid direction cfg.lockTtl) =
        some (locks, some answer)) : answer.locked = true := by
  cases hcall : s.locks.calls (k, .gate) with
  | idle =>
    obtain ⟨-, hanswer, -⟩ | ⟨-, hanswer, -⟩ := LockState.isThereATradeLock_cases hcall h
    · cases hanswer
      rfl
    · cases hanswer
  | checking | extending | releasing =>
    simp only [LockState.transition, hcall] at h
    cases h

/-- Where a worker goes decides whether a placement sets out. -/
theorem onWay_of_goTo {j k : κ} {locks : LockState (κ × LockRole)} {stage : FlightStage}
    (hway : ((s.goTo j locks stage).workers k).OnWay) :
    (s.workers k).OnWay ∨ (k = j ∧ stage.OnWay) := by
  by_cases hk : k = j
  · subst hk
    rw [goTo_self] at hway
    exact .inr ⟨rfl, hway⟩
  · rw [goTo_other hk] at hway
    exact .inl hway

/-- A placement sets out when a gate's answer comes, and then the lock was free. -/
theorem onWay_of_step {action : FlightAction κ} (h : s.step cfg action = some s') {k : κ}
    (hway : (s'.workers k).OnWay) :
    (s.workers k).OnWay ∨ (action = .gateReply k ∧ s.GateFree k) := by
  cases action with
  | advance elapsed =>
    cases h
    exact .inl hway
  | signal j strategyUuid direction =>
    simp only [step] at h
    split at h
    · split at h
      · rename_i locks answer ht
        cases h
        obtain hk | ⟨-, hstage⟩ := onWay_of_goTo hway
        · exact .inl hk
        · rw [gated, if_pos (signal_locked ht)] at hstage
          exact hstage.elim
      · cases h
        obtain hk | ⟨-, hstage⟩ := onWay_of_goTo hway
        · exact .inl hk
        · exact hstage.elim
      · cases h
    · cases h
  | gateReply j =>
    simp only [step] at h
    split at h
    · split at h
      · rename_i locks answer ht
        cases h
        obtain hk | ⟨rfl, hstage⟩ := onWay_of_goTo hway
        · exact .inl hk
        · cases hlocked : answer.locked with
          | true =>
            rw [gated, if_pos hlocked] at hstage
            exact hstage.elim
          | false => exact .inr ⟨rfl, gateFree_of_answer ht hlocked⟩
      · cases h
    · cases h
  | request j known blocked =>
    simp only [step] at h
    split at h
    · rename_i strategyUuid direction passedAt hchecking
      split_ifs at h with hsend
      · obtain ⟨locks, answer, -, rfl⟩ := command_cases h
        obtain hk | ⟨rfl, -⟩ := onWay_of_goTo hway
        · exact .inl hk
        · rw [hchecking]
          exact .inl trivial
      · cases h
        obtain hk | ⟨-, hstage⟩ := onWay_of_goTo hway
        · exact .inl hk
        · exact hstage.elim
    · cases h
  | extendReply j =>
    simp only [step] at h
    split at h
    · obtain ⟨locks, answer, -, rfl⟩ := command_cases h
      obtain hk | ⟨-, hstage⟩ := onWay_of_goTo hway
      · exact .inl hk
      · exact hstage.elim
    · cases h
  | outcome j status =>
    simp only [step] at h
    split at h
    · cases status with
      | accepted =>
        cases h
        obtain hk | ⟨-, hstage⟩ := onWay_of_goTo hway
        · exact .inl hk
        · exact hstage.elim
      | rejected | failed =>
        obtain ⟨locks, answer, -, rfl⟩ := command_cases h
        obtain hk | ⟨-, hstage⟩ := onWay_of_goTo hway
        · exact .inl hk
        · exact hstage.elim
    · cases h
  | releaseReply j | brakeReply j =>
    simp only [step] at h
    split at h
    · obtain ⟨locks, answer, -, rfl⟩ := command_cases h
      obtain hk | ⟨-, hstage⟩ := onWay_of_goTo hway
      · exact .inl hk
      · exact hstage.elim
    · cases h

/-- The placement that is handed over was on its way, and is no more. -/
theorem extendReply_cases {k : κ} (h : s.step cfg (.extendReply k) = some s') :
    (s.workers k).OnWay ∧ ¬ (s'.workers k).OnWay := by
  simp only [step] at h
  split at h
  · rename_i strategyUuid direction passedAt hextending
    obtain ⟨locks, answer, -, rfl⟩ := command_cases h
    rw [hextending, goTo_self]
    exact ⟨trivial, id⟩
  · cases h

/-- A worker that decides anew has no placement on its way. -/
theorem signal_cases {k : κ} {strategyUuid direction : String}
    (h : s.step cfg (.signal k strategyUuid direction) = some s') :
    ¬ (s.workers k).OnWay ∧ ¬ (s'.workers k).OnWay := by
  have hidle : ¬ (s.workers k).OnWay := by
    intro hway
    simp only [step] at h
    split at h
    · rename_i hstage
      rw [hstage] at hway
      exact hway
    · cases h
  refine ⟨hidle, fun hway => ?_⟩
  obtain hbefore | ⟨hne, -⟩ := onWay_of_step h hway
  · exact hidle hbefore
  · cases hne

end FlightState

/-! ## When references are unique -/

namespace MintState

variable {κ : Type} [DecidableEq κ] {cfg : FlightConfig κ} {uuid : κ → String}
  {s s' : MintState κ}

omit [DecidableEq κ] in
variable (uuid) in
/-- No placement of the worker's slot was handed over, or is on its way with another worker. -/
def Unclaimed (s : MintState κ) (k : κ) : Prop :=
  (∀ a ∈ s.handed, ¬ a.SameSlot (s.attempt uuid k)) ∧
    ∀ j ≠ k, (s.flight.workers j).OnWay → ¬ (s.attempt uuid j).SameSlot (s.attempt uuid k)

variable (uuid) in
/-- A gate that finds the lock free decides on a tick whose slot is unclaimed. -/
def Covered (s : MintState κ) (action : MintAction κ) : Prop :=
  ∀ k, action = .goOn (.gateReply k) → s.flight.GateFree k → s.Unclaimed uuid k

variable (uuid) in
/-- The placements, handed over or on their way, are of slots of their own. -/
structure Apart (s : MintState κ) : Prop where
  handed : s.handed.Pairwise fun a b => ¬ a.SameSlot b
  own : ∀ a ∈ s.handed, ∃ k, a.strategyUuid = uuid k
  onWay : ∀ k, (s.flight.workers k).OnWay → s.Unclaimed uuid k

omit [DecidableEq κ] in
theorem Apart.fresh (now : ℤ) (redis : Expiring.Store String String ℤ) :
    Apart uuid (MintState.fresh now redis) where
  handed := .nil
  own := List.forall_mem_nil _
  onWay _ hway := hway.elim

/-- A covered step that hands nothing over keeps placements apart. -/
theorem Apart.goOn (hs : s.Apart uuid) {action : FlightAction κ} {flight : FlightState κ}
    (hcovered : s.Covered uuid (.goOn action)) (h : s.flight.step cfg action = some flight) :
    Apart uuid { s with flight } := by
  have hunclaimed (k : κ) (hk : (flight.workers k).OnWay) : s.Unclaimed uuid k := by
    obtain hbefore | ⟨rfl, hfree⟩ := FlightState.onWay_of_step h hk
    · exact hs.onWay k hbefore
    · exact hcovered k rfl hfree
  constructor
  · exact hs.handed
  · exact hs.own
  · intro k hk
    constructor
    · exact (hunclaimed k hk).1
    · intro j hj hway hsame
      obtain hbefore | ⟨hj', -⟩ := FlightState.onWay_of_step h hway
      · exact (hunclaimed k hk).2 j hj hbefore hsame
      · obtain hbefore | ⟨hk', -⟩ := FlightState.onWay_of_step h hk
        · exact (hunclaimed j hway).2 k hj.symm hbefore hsame.symm
        · rw [hj'] at hk'
          cases hk'
          exact hj rfl

theorem Apart.signal (hs : s.Apart uuid) {k : κ} {direction : Direction} {timestamp : ℤ}
    {flight : FlightState κ}
    (h : s.flight.step cfg (.signal k (uuid k) (directionName direction)) = some flight) :
    Apart uuid
      { s with flight, decided := Function.update s.decided k (direction, timestamp) } := by
  have hself := (FlightState.signal_cases h).2
  have hbefore (j : κ) (hj : (flight.workers j).OnWay) :
      j ≠ k ∧ (s.flight.workers j).OnWay := by
    constructor
    · rintro rfl
      exact hself hj
    · obtain hway | ⟨hne, -⟩ := FlightState.onWay_of_step h hj
      · exact hway
      · cases hne
  have hattempt (j : κ) (hj : j ≠ k) : attempt uuid
      { s with flight, decided := Function.update s.decided k (direction, timestamp) } j =
        s.attempt uuid j := by
    simp only [attempt, Function.update_of_ne hj]
  constructor
  · exact hs.handed
  · exact hs.own
  · intro j hj
    obtain ⟨hne, hway⟩ := hbefore j hj
    obtain ⟨hhanded, hothers⟩ := hs.onWay j hway
    constructor
    · rw [hattempt j hne]
      exact hhanded
    · intro i hi hi'
      obtain ⟨hne', hway'⟩ := hbefore i hi'
      rw [hattempt j hne, hattempt i hne']
      exact hothers i hi hway'

theorem Apart.extendReply (hs : s.Apart uuid) {k : κ} {flight : FlightState κ}
    (h : s.flight.step cfg (.extendReply k) = some flight) :
    Apart uuid { s with flight, handed := s.handed ++ [s.attempt uuid k] } := by
  obtain ⟨hk, hself⟩ := FlightState.extendReply_cases h
  have hbefore (j : κ) (hj : (flight.workers j).OnWay) : (s.flight.workers j).OnWay := by
    obtain hway | ⟨hne, -⟩ := FlightState.onWay_of_step h hj
    · exact hway
    · cases hne
  constructor
  · rw [List.pairwise_append]
    refine ⟨hs.handed, List.pairwise_singleton _ _, fun a ha b hb => ?_⟩
    rw [List.mem_singleton.mp hb]
    exact (hs.onWay k hk).1 a ha
  · intro a ha
    obtain hold | hnew := List.mem_append.mp ha
    · exact hs.own a hold
    · rw [List.mem_singleton.mp hnew]
      exact ⟨k, rfl⟩
  · intro j hj
    obtain ⟨hhanded, hothers⟩ := hs.onWay j (hbefore j hj)
    constructor
    · intro a ha
      obtain hold | hnew := List.mem_append.mp ha
      · exact hhanded a hold
      · rw [List.mem_singleton.mp hnew]
        refine hothers k ?_ hk
        rintro rfl
        exact hself hj
    · exact fun i hi hi' => hothers i hi (hbefore i hi')

theorem Apart.step (hs : s.Apart uuid) {action : MintAction κ} (hcovered : s.Covered uuid action)
    (h : s.step cfg uuid action = some s') : s'.Apart uuid := by
  cases action with
  | signal k direction timestamp =>
    obtain ⟨flight, hflight, rfl⟩ := Option.map_eq_some_iff.mp h
    exact hs.signal hflight
  | goOn action =>
    cases action with
    | signal => cases h
    | extendReply k =>
      obtain ⟨flight, hflight, rfl⟩ := Option.map_eq_some_iff.mp h
      exact hs.extendReply hflight
    | advance | gateReply | request | outcome | releaseReply | brakeReply =>
      simp only [MintState.step] at h
      obtain ⟨flight, hflight, rfl⟩ := Option.map_eq_some_iff.mp h
      exact hs.goOn hcovered hflight

/-! ## Two placements of one worker -/

/-- The ticks on which a worker decides, in the order of a run. -/
def stream (k : κ) (actions : List (MintAction κ)) : List ℤ :=
  actions.filterMap fun
    | .signal j _ timestamp => if j = k then some timestamp else none
    | .goOn _ => none

section

/-- A lock of thirty seconds, and one of two minutes after a failure. -/
def lone : FlightConfig Unit := ⟨30 * second, 120 * second, fun _ => "live"⟩

/-- A placement that outlives the lock, and the worker's next one, for a tick of this time. -/
def placedTwice (timestamp : ℤ) : List (MintAction Unit) :=
  [.signal () .long 1700000000000000, .goOn (.gateReply ()), .goOn (.request () true false),
    .goOn (.extendReply ()), .goOn (.advance 31000000), .goOn (.outcome () .accepted),
    .signal () .long timestamp, .goOn (.gateReply ()), .goOn (.request () true false),
    .goOn (.extendReply ())]

theorem placedTwice_handed (timestamp : ℤ) : ∃ s,
    Transition.exec (step lone fun _ => "1f0e8c1a") (fresh 0 .empty) (placedTwice timestamp) =
        some s ∧
      s.handed = [⟨"1f0e8c1a", .long, 1700000000000000⟩, ⟨"1f0e8c1a", .long, timestamp⟩] :=
  ⟨_, rfl, rfl⟩

theorem covered_of_ne {uuid : Unit → String} {s : MintState Unit} {action : MintAction Unit}
    (h : ∀ k, action ≠ .goOn (.gateReply k)) : s.Covered uuid action :=
  fun k hk => absurd hk (h k)

theorem unclaimed_of_handed {uuid : Unit → String} {s : MintState Unit}
    (h : ∀ a ∈ s.handed, ¬ a.SameSlot (s.attempt uuid ())) (k : Unit) : s.Unclaimed uuid k :=
  ⟨h, fun _ hne => absurd rfl hne⟩

open Transition in
theorem placedTwice_covered :
    Transition.Along (step lone fun _ => "1f0e8c1a") (Covered fun _ => "1f0e8c1a") (fresh 0 .empty)
      (placedTwice 1700000031000000) := by
  refine along_cons rfl (covered_of_ne ?_) (along_cons rfl ?_
    (along_cons rfl (covered_of_ne ?_) (along_cons rfl (covered_of_ne ?_)
      (along_cons rfl (covered_of_ne ?_) (along_cons rfl (covered_of_ne ?_)
        (along_cons rfl (covered_of_ne ?_) (along_cons rfl ?_
          (along_cons rfl (covered_of_ne ?_) (along_cons rfl (covered_of_ne ?_) trivial)))))))))
  case refine_2 => exact fun k _ _ => unclaimed_of_handed (by decide) k
  case refine_8 => exact fun k _ _ => unclaimed_of_handed (by decide) k
  all_goals exact fun k h => by cases h

end

end MintState

end Live

end BacktestEngine
