import BacktestEngine.Bars.Sharing

/-! # The bars of a series in time

A bar opens only when the last one is older than the duration, so the bars of a series
start further apart than that; and the last bar has the price of the last tick.
-/

namespace BacktestEngine

namespace BarStore

variable {minutes : ℤ} {ticks : List PriceData} {tick : PriceData} {bar last : OhlcObject}

theorem timeBars_concat : timeBars minutes (ticks ++ [tick]) =
    BoundedTail.advance (Ohlc.rollBar tick tick.ask (duration minutes)) (timeBars minutes ticks) := by
  simp [timeBars]

/-- The dates of two bars of a series lie further apart than its duration. -/
def Spaced (minutes : ℤ) (bars : List OhlcObject) : Prop :=
  bars.Pairwise fun a b => a.date + duration minutes < b.date

/-- What a tick makes of the last bar: the bar with the price in it, or the bar and a new one. -/
theorem rollBar_cases (tick : PriceData) (price duration : ℤ) (last : OhlcObject) :
    Ohlc.rollBar tick price duration (some last) = [last.absorb price] ∧
        tick.timestamp ≤ last.date + duration ∨
      Ohlc.rollBar tick price duration (some last) =
          [{ last with complete := true }, .opened tick price] ∧
        last.date + duration < tick.timestamp := by
  unfold Ohlc.rollBar
  dsimp only
  split_ifs with hlate
  · exact .inr ⟨rfl, by omega⟩
  · exact .inl ⟨rfl, by omega⟩

theorem spaced_timeBars (hminutes : 1 ≤ minutes) : Spaced minutes (timeBars minutes ticks) := by
  have hduration := duration_pos hminutes
  induction ticks using List.reverseRecOn with
  | nil => exact .nil
  | append_singleton ticks tick ih =>
    rw [timeBars_concat, BoundedTail.advance]
    generalize timeBars minutes ticks = bars at ih
    induction bars using List.reverseRecOn with
    | nil => exact List.pairwise_singleton _ _
    | append_singleton bars last =>
      rw [List.dropLast_concat, List.getLast?_concat]
      obtain ⟨hbars, -, hlast⟩ := List.pairwise_append.mp ih
      have hbefore (a : OhlcObject) (ha : a ∈ bars) : a.date + duration minutes < last.date :=
        hlast a ha last List.mem_cons_self
      rw [Spaced, List.pairwise_append]
      obtain ⟨hroll, -⟩ | ⟨hroll, hlate⟩ := rollBar_cases tick tick.ask (duration minutes) last
      · rw [hroll]
        refine ⟨hbars, List.pairwise_singleton _ _, fun a ha b hb => ?_⟩
        rw [List.mem_singleton.mp hb]
        exact hbefore a ha
      · rw [hroll]
        refine ⟨hbars, ?_, fun a ha b hb => ?_⟩
        · rw [List.pairwise_pair]
          exact hlate
        · have hdate := hbefore a ha
          obtain rfl | rfl := List.mem_pair.mp hb
          · exact hdate
          · change a.date + duration minutes < tick.timestamp
            omega

/-- What holds of a bar when it opens, and stays so, holds of all bars. -/
theorem forall_timeBars {P : OhlcObject → Prop}
    (hopened : ∀ tick ∈ ticks, P (.opened tick tick.ask))
    (habsorb : ∀ bar, ∀ tick ∈ ticks, P bar → P (bar.absorb tick.ask))
    (hcomplete : ∀ bar, P bar → P { bar with complete := true }) :
    ∀ bar ∈ timeBars minutes ticks, P bar := by
  induction ticks using List.reverseRecOn with
  | nil => exact fun bar h => (List.not_mem_nil h).elim
  | append_singleton ticks tick ih =>
    have hsub : ∀ t ∈ ticks, t ∈ ticks ++ [tick] := fun t => List.mem_append_left [tick]
    have hnew : tick ∈ ticks ++ [tick] := List.mem_append_right ticks List.mem_cons_self
    have hbars := ih (fun t ht => hopened t (hsub t ht))
      (fun bar t ht => habsorb bar t (hsub t ht))
    rw [timeBars_concat, BoundedTail.advance]
    generalize timeBars minutes ticks = bars at hbars
    induction bars using List.reverseRecOn with
    | nil =>
      intro bar hbar
      rw [List.mem_singleton.mp hbar]
      exact hopened tick hnew
    | append_singleton bars last =>
      rw [List.dropLast_concat, List.getLast?_concat]
      have hlast : P last := hbars last (List.mem_append_right _ List.mem_cons_self)
      intro bar hbar
      obtain hbar | hbar := List.mem_append.mp hbar
      · exact hbars bar (List.mem_append_left _ hbar)
      · obtain ⟨hroll, -⟩ | ⟨hroll, -⟩ := rollBar_cases tick tick.ask (duration minutes) last
        · rw [hroll, List.mem_singleton] at hbar
          rw [hbar]
          exact habsorb last tick hnew hlast
        · rw [hroll, List.mem_pair] at hbar
          obtain rfl | rfl := hbar
          · exact hcomplete last hlast
          · exact hopened tick hnew

/-- The dates are those of ticks. -/
theorem date_mem_timeBars : ∀ bar ∈ timeBars minutes ticks, ∃ tick ∈ ticks,
    bar.date = tick.timestamp :=
  forall_timeBars (fun tick htick => ⟨tick, htick, rfl⟩) (fun _ _ _ h => h) fun _ h => h

/-- The prices of a series stay within what its ticks stay within. -/
theorem bounds_timeBars {low high : ℤ} (h : ∀ tick ∈ ticks, low ≤ tick.ask ∧ tick.ask < high) :
    ∀ bar ∈ timeBars minutes ticks, low ≤ bar.high ∧ bar.high < high ∧ low ≤ bar.low ∧
      bar.low < high := by
  apply forall_timeBars
  · intro tick htick
    obtain ⟨hlow, hhigh⟩ := h tick htick
    exact ⟨hlow, hhigh, hlow, hhigh⟩
  · intro bar tick htick hbar
    obtain ⟨hlow, hhigh⟩ := h tick htick
    rw [OhlcObject.absorb_high, OhlcObject.absorb_low]
    omega
  · exact fun _ h => h

/-- The last bar has taken in the last tick. -/
theorem getLast?_timeBars_concat (minutes : ℤ) (ticks : List PriceData) (tick : PriceData) : ∃ bar,
    (timeBars minutes (ticks ++ [tick])).getLast? = some bar ∧ bar.low ≤ tick.ask ∧
      tick.ask ≤ bar.high := by
  rw [timeBars_concat, BoundedTail.getLast?_advance (Ohlc.rollBar_ne_nil _ _ _)]
  cases (timeBars minutes ticks).getLast? with
  | none => exact ⟨_, rfl, le_rfl, le_rfl⟩
  | some last =>
    obtain ⟨hroll, -⟩ | ⟨hroll, -⟩ := rollBar_cases tick tick.ask (duration minutes) last
    · refine ⟨last.absorb tick.ask, by rw [hroll]; rfl, ?_, ?_⟩
      · rw [OhlcObject.absorb_low]
        exact min_le_right _ _
      · rw [OhlcObject.absorb_high]
        exact le_max_right _ _
    · exact ⟨.opened tick tick.ask, by rw [hroll]; rfl, le_rfl, le_rfl⟩

/-- The bars of a series that is long enough reach far back. -/
theorem Spaced.reaches {bars : List OhlcObject} {front last : OhlcObject}
    (h : Spaced minutes bars) (hfront : bars.head? = some front)
    (hlast : bars.getLast? = some last) :
    front.date + (bars.length - 1) * duration minutes ≤ last.date := by
  induction bars generalizing front with
  | nil => cases hfront
  | cons bar bars ih =>
    cases hfront
    cases bars with
    | nil =>
      cases hlast
      simp
    | cons next bars =>
      obtain ⟨hhead, htail⟩ := List.pairwise_cons.mp h
      have hstep := hhead next List.mem_cons_self
      have hrest := ih htail rfl (by rwa [List.getLast?_cons_cons] at hlast)
      simp only [List.length_cons, Nat.cast_add, Nat.cast_one] at hrest ⊢
      linarith

end BarStore

end BacktestEngine
