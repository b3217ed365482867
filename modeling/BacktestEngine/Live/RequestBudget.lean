import BacktestEngine.Live.RequestClient

/-! # The request budget of a minute

The count that a request reads lies between the requests handed over in its minute and all
of them. The comparison lets one request through when the count equals the budget.
-/

namespace BacktestEngine

namespace Live

open ApiRequestGate
open RangeBar (toInt32 toInt32_of_small)

variable {s : ClientState} {event : RequestEvent}

/-! ## Counts -/

/-- The requests of a clock minute. -/
def madeIn (minute : ℕ) (history : List RequestMade) : ℕ :=
  history.countP fun h => h.now / kMinute = minute

/-- Those that were handed to the transport. -/
def handedIn (minute : ℕ) (history : List RequestMade) : ℕ :=
  history.countP fun h => h.now / kMinute = minute ∧ h.handed

/-- Those of them that were not risk-reducing. -/
def opensIn (minute : ℕ) (history : List RequestMade) : ℕ :=
  history.countP fun h => h.now / kMinute = minute ∧ h.handed ∧ h.riskReducing = false

namespace ApiRequestGate

/-- What a key may hold counts requests of one minute, that of its last write. -/
structure Counts (history : List RequestMade) (key : ℕ) (text : String) (expiry count last : ℕ) :
    Prop where
  reads : parseCount text = (count : ℤ)
  expires : expiry = last + kMinute
  window : last / kMinute % 60 = key
  handed : handedIn (last / kMinute) history ≤ count
  made : count ≤ madeIn (last / kMinute) history

end ApiRequestGate

/-- The keys of the counts at an instant after all requests. -/
structure Accounts (s : ClientState) (now : ℕ) : Prop where
  past : ∀ h ∈ s.history, h.now ≤ now
  entries : ∀ (key : ℕ) text expiry, s.redis (requestWindowKey key) = some (text, expiry) →
    ∃ count last, Counts s.history key text expiry count last ∧ last ≤ now
  present : ∀ h ∈ s.history, h.handed = true → ∃ text last,
    s.redis (requestWindowKey (h.now / kMinute % 60 : ℕ)) = some (text, last + kMinute) ∧
      h.now / kMinute ≤ last / kMinute

variable {now : ℕ} {minute key : ℕ} {history : List RequestMade}

theorem toList_toString (n : ℕ) : (toString (n : ℤ)).toList = Nat.toDigits 10 n :=
  Nat.toList_repr

/-- A count that was written is read back. -/
theorem fromChars_toString {n : ℕ} (h : n < 2 ^ 31) :
    fromChars (toString (n : ℤ)).toList = some (n : ℤ) := by
  have hdigit : ∀ c ∈ Nat.toDigits 10 n, c.isDigit = true := fun c hc =>
    Nat.isDigit_of_mem_toDigits (by decide) (by decide) hc
  have hminus : (Nat.toDigits 10 n).head? ≠ some '-' := by
    intro hhead
    have := hdigit '-' (List.mem_of_head? hhead)
    revert this
    decide
  have hfront : (Nat.toDigits 10 n).takeWhile Char.isDigit = Nat.toDigits 10 n :=
    List.takeWhile_eq_self_iff.mpr hdigit
  unfold fromChars
  rw [toList_toString]
  simp only [hminus, if_false, hfront, Nat.ofDigitChars_ten_toDigits]
  rw [if_neg]
  rintro (hnil | hlow | hhigh)
  · exact Nat.toDigits_ne_nil hnil
  · omega
  · omega

theorem parseCount_toString {n : ℕ} (h : n < 2 ^ 31) : parseCount (toString (n : ℤ)) = n := by
  rw [parseCount, fromChars_toString h]
  exact if_neg (by omega)

/-- The largest `int` and one more is a negative number, and counts nothing. -/
theorem parseCount_overflow : parseCount (toString (toInt32 (2 ^ 31))) = 0 := by
  decide

theorem fromChars_lt {text : List Char} {value : ℤ} (h : fromChars text = some value) :
    value < 2 ^ 31 := by
  unfold fromChars at h
  dsimp only at h
  rw [Option.ite_none_left_eq_some] at h
  obtain ⟨hfits, hvalue⟩ := h
  cases hvalue
  rw [not_or, not_or, not_le] at hfits
  exact hfits.2.2

theorem parseCount_lt (text : String) : parseCount text < 2 ^ 31 := by
  unfold parseCount
  cases hvalue : fromChars text.toList with
  | none => exact (by decide : (0 : ℤ) < 2 ^ 31)
  | some value =>
    have hlt := fromChars_lt hvalue
    dsimp only
    split_ifs <;> omega

theorem requestsMade_lt (store : GateStore) (now : ℕ) (minuteOfHour : ℤ) :
    requestsMade store now minuteOfHour < 2 ^ 31 := by
  unfold requestsMade
  cases store.get now (requestWindowKey minuteOfHour) with
  | none => exact (by decide : (0 : ℤ) < 2 ^ 31)
  | some text => exact parseCount_lt text

theorem requestWindowKey_inj {a b : ℕ} (h : requestWindowKey a = requestWindowKey b) : a = b := by
  have htext : toString (a : ℤ) = toString (b : ℤ) := (String.append_right_inj "REQ#").mp h
  have hdigits := congrArg String.toList htext
  rw [toList_toString, toList_toString] at hdigits
  rw [← Nat.ofDigitChars_ten_toDigits (n := a), hdigits, Nat.ofDigitChars_ten_toDigits]

theorem dealRequestKey_ne (dealId : String) (minute : ℤ) :
    dealRequestKey dealId ≠ requestWindowKey minute := by
  intro h
  have hchars := congrArg String.toList h
  simp [dealRequestKey, requestWindowKey] at hchars

theorem madeIn_append (h : RequestMade) : madeIn minute (history ++ [h]) =
    madeIn minute history + if h.now / kMinute = minute then 1 else 0 := by
  rw [madeIn, List.countP_append, madeIn, List.countP_singleton]
  simp

theorem handedIn_append (h : RequestMade) : handedIn minute (history ++ [h]) =
    handedIn minute history + if h.now / kMinute = minute ∧ h.handed then 1 else 0 := by
  rw [handedIn, List.countP_append, handedIn, List.countP_singleton]
  simp

theorem opensIn_append (h : RequestMade) : opensIn minute (history ++ [h]) =
    opensIn minute history +
      if h.now / kMinute = minute ∧ h.handed ∧ h.riskReducing = false then 1 else 0 := by
  rw [opensIn, List.countP_append, opensIn, List.countP_singleton]
  simp

theorem opensIn_le_handedIn : opensIn minute history ≤ handedIn minute history := by
  apply List.countP_mono_left
  intro h _
  simp only [decide_eq_true_eq]
  exact fun hopen => ⟨hopen.1, hopen.2.1⟩

theorem handedIn_pos (h : 0 < handedIn minute history) :
    ∃ handled ∈ history, handled.now / kMinute = minute ∧ handled.handed = true := by
  obtain ⟨handled, hmem, hin⟩ := List.countP_pos_iff.mp h
  exact ⟨handled, hmem, of_decide_eq_true hin⟩

theorem Accounts.start (now : ℕ) : Accounts .start now :=
  ⟨fun _ h => absurd h List.not_mem_nil, nofun, fun _ h => absurd h List.not_mem_nil⟩

theorem Accounts.later {later : ℕ} (h : Accounts s now) (hle : now ≤ later) :
    Accounts s later := by
  refine ⟨fun handled hmem => (h.past handled hmem).trans hle, ?_, h.present⟩
  intro key text expiry hentry
  obtain ⟨count, last, hcounts, hlast⟩ := h.entries key text expiry hentry
  exact ⟨count, last, hcounts, hlast.trans hle⟩

/-- A write that has not expired was made in this minute or the one before it, so two minutes of
one key cannot meet. -/
theorem minute_of_window {last : ℕ} (hlast : last ≤ now) (hlive : now < last + kMinute)
    (hkey : last / kMinute % 60 = now / kMinute % 60) : last / kMinute = now / kMinute := by
  unfold kMinute at *
  omega

/-- The count that is read lies between the requests handed over in the minute and all of them. -/
theorem Accounts.made (h : Accounts s now) :
    (handedIn (now / kMinute) s.history : ℤ) ≤
        requestsMade s.redis now (currentMinuteOfHour now) ∧
      requestsMade s.redis now (currentMinuteOfHour now) ≤
        madeIn (now / kMinute) s.history := by
  unfold requestsMade currentMinuteOfHour
  cases hget : s.redis.get now (requestWindowKey (now / kMinute % 60 : ℕ)) with
  | none =>
    dsimp only
    refine ⟨?_, Int.natCast_nonneg _⟩
    by_contra hneg
    have hpos : 0 < handedIn (now / kMinute) s.history := by omega
    obtain ⟨handled, hmem, hminute, hhanded⟩ := handedIn_pos hpos
    obtain ⟨text, last, hentry, hlate⟩ := h.present handled hmem hhanded
    rw [hminute] at hentry hlate
    have hlive : now < last + kMinute := by
      unfold kMinute at *
      omega
    have hread := Expiring.Store.get_eq_some.mpr ⟨_, hentry, hlive⟩
    rw [hget] at hread
    cases hread
  | some text =>
    obtain ⟨expiry, hentry, hlive⟩ := Expiring.Store.get_eq_some.mp hget
    obtain ⟨count, last, ⟨hreads, hexpires, hwindow, hhanded, hmade⟩, hlast⟩ :=
      h.entries _ _ _ hentry
    rw [hexpires] at hlive
    rw [minute_of_window hlast hlive hwindow] at hhanded hmade
    dsimp only
    rw [hreads]
    omega

theorem Accounts.refused (h : Accounts s event.now) (riskReducing : Bool) :
    Accounts ⟨s.redis, s.history ++ [⟨event.now, riskReducing, false⟩]⟩ event.now := by
  refine ⟨?_, ?_, ?_⟩
  · intro handled hmem
    obtain hmem | hmem := List.mem_append.mp hmem
    · exact h.past handled hmem
    · rw [List.mem_singleton.mp hmem]
  · intro key text expiry hentry
    obtain ⟨count, last, hcounts, hlast⟩ := h.entries key text expiry hentry
    refine ⟨count, last, ⟨hcounts.reads, hcounts.expires, hcounts.window, ?_, ?_⟩, hlast⟩
    · rw [handedIn_append]
      simpa using hcounts.handed
    · rw [madeIn_append]
      exact hcounts.made.trans (Nat.le_add_right _ _)
  · intro handled hmem hhanded
    obtain hmem | hmem := List.mem_append.mp hmem
    · exact h.present handled hmem hhanded
    · rw [List.mem_singleton.mp hmem] at hhanded
      cases hhanded

/-- What a recorded request leaves under the keys of the counts. -/
theorem recorded_window (key : ℕ) : event.recorded s (requestWindowKey key) =
    if key = event.now / kMinute % 60 then
      some (toString (toInt32 (event.made s + 1)), event.now + kMinute)
    else s.redis (requestWindowKey key) := by
  have hdeal : event.recorded s (requestWindowKey key) = recordRequest s.redis event.now
      (currentMinuteOfHour event.now) (requestWindowKey key) := by
    unfold RequestEvent.recorded recordDealRequest
    split_ifs
    · rfl
    · exact Function.update_of_ne (dealRequestKey_ne _ _).symm _ _
  rw [hdeal, recordRequest, currentMinuteOfHour]
  split_ifs with hkey
  · rw [hkey]
    exact Function.update_self ..
  · exact Function.update_of_ne (fun h => hkey (requestWindowKey_inj h)) _ _

theorem Accounts.recorded (h : Accounts s event.now) (riskReducing handed : Bool)
    (hroom : event.made s = 2 ^ 31 - 1 →
      handed = false ∧ handedIn (event.now / kMinute) s.history = 0) :
    Accounts ⟨event.recorded s, s.history ++ [⟨event.now, riskReducing, handed⟩]⟩ event.now := by
  obtain ⟨hlow, hhigh⟩ := h.made
  obtain ⟨count, hcount⟩ : ∃ count : ℕ, event.made s = count :=
    Int.eq_ofNat_of_zero_le (hlow.trans' (Int.natCast_nonneg _))
  rw [← RequestEvent.made, hcount] at hlow hhigh
  refine ⟨?_, ?_, ?_⟩
  · intro handled hmem
    obtain hmem | hmem := List.mem_append.mp hmem
    · exact h.past handled hmem
    · rw [List.mem_singleton.mp hmem]
  · intro key text expiry hentry
    change event.recorded s (requestWindowKey key) = _ at hentry
    rw [recorded_window] at hentry
    split_ifs at hentry with hkey
    · cases hentry
      by_cases hfull : event.made s = 2 ^ 31 - 1
      · obtain ⟨hhanded, hnone⟩ := hroom hfull
        refine ⟨0, event.now, ⟨?_, rfl, hkey.symm, ?_, Nat.zero_le _⟩, le_rfl⟩
        · rw [hfull]
          exact parseCount_overflow
        · rw [handedIn_append, hnone, hhanded]
          simp
      · have hlt : event.made s < 2 ^ 31 := requestsMade_lt ..
        refine ⟨count + 1, event.now, ⟨?_, rfl, hkey.symm, ?_, ?_⟩, le_rfl⟩
        · have hvalue : toInt32 (event.made s + 1) = (count + 1 : ℕ) := by
            rw [hcount, toInt32_of_small]
            · rfl
            · omega
            · omega
          rw [hvalue]
          exact parseCount_toString (by omega)
        · rw [handedIn_append]
          split_ifs <;> omega
        · rw [madeIn_append, if_pos rfl]
          omega
    · obtain ⟨count', last, hcounts, hlast⟩ := h.entries key text expiry hentry
      -- a count under another key is one of another minute
      have hother : ¬ event.now / kMinute = last / kMinute := by
        rintro hsame
        rw [hsame] at hkey
        exact hkey hcounts.window.symm
      refine ⟨count', last, ⟨hcounts.reads, hcounts.expires, hcounts.window, ?_, ?_⟩, hlast⟩
      · rw [handedIn_append, if_neg fun hin => hother hin.1]
        exact hcounts.handed
      · rw [madeIn_append]
        exact hcounts.made.trans (Nat.le_add_right _ _)
  · intro handled hmem hhanded
    change ∃ text last, event.recorded s _ = _ ∧ _
    by_cases hkey : handled.now / kMinute % 60 = event.now / kMinute % 60
    · refine ⟨_, event.now, by rw [recorded_window, if_pos hkey], ?_⟩
      obtain hmem | hmem := List.mem_append.mp hmem
      · exact Nat.div_le_div_right (h.past handled hmem)
      · rw [List.mem_singleton.mp hmem]
    · obtain hmem | hmem := List.mem_append.mp hmem
      · obtain ⟨text, last, hentry, hlate⟩ := h.present handled hmem hhanded
        exact ⟨text, last, by rw [recorded_window, if_neg hkey, hentry], hlate⟩
      · rw [List.mem_singleton.mp hmem] at hkey
        exact absurd rfl hkey

/-! ## Runs -/

variable {pre events : List RequestEvent}

/-- At most the budget of every clock minute is handed over that is not risk-reducing, and the count
read at an instant lies between the requests handed over in its minute and all of them. -/
structure Budgeted (s : ClientState) (now : ℕ) : Prop where
  opens : ∀ minute, (opensIn minute s.history : ℤ) ≤ kMaxRequestsPerMinute
  recorded : (handedIn (now / kMinute) s.history : ℤ) ≤
    requestsMade s.redis now (currentMinuteOfHour now)
  own : requestsMade s.redis now (currentMinuteOfHour now) ≤ madeIn (now / kMinute) s.history

/-- A request that is not risk-reducing comes when the whole budget of its minute has been handed
over to such requests, and is let through because the count equals the budget. -/
structure Overruns (s : ClientState) (event : RequestEvent) : Prop where
  opening : event.options.riskReducing = false
  unmarked : event.duplicate s = false
  authorised : event.authorised = true
  full : event.made s = kMaxRequestsPerMinute
  opens : (opensIn (event.now / kMinute) s.history : ℤ) = kMaxRequestsPerMinute

/-- A request is recorded when the count is the largest `int`, and it or one before it in its minute
is handed over. -/
structure Overflows (s : ClientState) (event : RequestEvent) : Prop where
  passes : event.Passes s
  full : event.made s = 2 ^ 31 - 1
  handed : event.authorised = true ∨ 0 < handedIn (event.now / kMinute) s.history

theorem ClientState.run_concat (s : ClientState) (events : List RequestEvent)
    (event : RequestEvent) : s.run (events ++ [event]) = (s.run events).request event := by
  rw [run, List.foldl_concat]
  rfl

theorem ClientState.madeIn_run (minute : ℕ) (events : List RequestEvent) :
    madeIn minute (start.run events).history =
      events.countP fun event => event.now / kMinute = minute := by
  induction events using List.reverseRecOn with
  | nil => rfl
  | append_singleton events event ih =>
    rw [run_concat, request_eq, List.countP_append, ← ih, List.countP_singleton]
    split_ifs <;> simp_all [madeIn_append]

/-- A request that does not overflow the count keeps the counts in order. -/
theorem Accounts.request (h : Accounts s event.now) (hroom : ¬ Overflows s event) :
    Accounts (s.request event) event.now := by
  rw [request_eq]
  split_ifs with hpasses
  · apply h.recorded
    intro hfull
    constructor
    · by_contra hauthorised
      exact hroom ⟨hpasses, hfull, .inl (by simpa using hauthorised)⟩
    · by_contra hhanded
      exact hroom ⟨hpasses, hfull, .inr (Nat.pos_of_ne_zero hhanded)⟩
  · exact h.refused _

/-- Behind an overflow the count is lower than the number of requests handed over. -/
theorem Overflows.not_recorded (h : Overflows s event) :
    ¬ (handedIn (event.now / kMinute) (s.request event).history : ℤ) ≤
      requestsMade (s.request event).redis event.now (currentMinuteOfHour event.now) := by
  have hentry : event.recorded s (requestWindowKey (event.now / kMinute % 60 : ℕ)) = _ :=
    recorded_window _
  rw [if_pos rfl, h.full] at hentry
  have hget := Expiring.Store.get_eq_some.mpr
    ⟨_, hentry, Nat.lt_add_of_pos_right (by decide : 0 < kMinute)⟩
  rw [request_eq, if_pos h.passes, handedIn_append]
  unfold requestsMade currentMinuteOfHour
  rw [hget]
  dsimp only
  change ¬ _ ≤ parseCount (toString (toInt32 (2 ^ 31)))
  rw [parseCount_overflow]
  obtain hauthorised | hhanded := h.handed
  · rw [if_pos ⟨rfl, hauthorised⟩]
    omega
  · omega

/-- The counts of a run are in order while an `int` can hold them. -/
theorem accounts_run (hordered : events.Pairwise fun a b => a.now ≤ b.now)
    (hroom : ∀ pre event, pre ++ [event] <+: events →
      ¬ Overflows (ClientState.start.run pre) event)
    (hpast : ∀ event ∈ events, event.now ≤ now) :
    Accounts (ClientState.start.run events) now := by
  induction events using List.reverseRecOn generalizing now with
  | nil => exact .start now
  | append_singleton events event ih =>
    obtain ⟨hbefore, -, hlast⟩ := List.pairwise_append.mp hordered
    have haccounts : Accounts (ClientState.start.run events) event.now := by
      apply ih hbefore
      · exact fun pre earlier hpre => hroom pre earlier (hpre.trans (List.prefix_append _ _))
      · exact fun earlier hearlier => hlast earlier hearlier event List.mem_cons_self
    rw [ClientState.run_concat]
    exact (haccounts.request (hroom events event (List.prefix_refl _))).later
      (hpast event (List.mem_append_right _ List.mem_cons_self))

/-- A count overflows only in a minute of as many requests. -/
theorem not_overflows_of_count (hordered : events.Pairwise fun a b => a.now ≤ b.now)
    (hcount : ∀ minute, events.countP (fun event => event.now / kMinute = minute) < 2 ^ 31) :
    ∀ pre event, pre ++ [event] <+: events → ¬ Overflows (ClientState.start.run pre) event := by
  induction events using List.reverseRecOn with
  | nil => exact fun pre event hpre => absurd (List.prefix_nil.mp hpre) (by simp)
  | append_singleton events last ih =>
    obtain ⟨hbefore, -, hlast⟩ := List.pairwise_append.mp hordered
    have hroom := ih hbefore fun minute =>
      (List.Sublist.countP_le (List.sublist_append_left _ _)).trans_lt (hcount minute)
    intro pre event hpre hover
    obtain hsame | hshort := List.prefix_concat_iff.mp hpre
    · obtain ⟨rfl, hevent⟩ := List.append_inj' hsame rfl
      obtain rfl := List.singleton_inj.mp hevent
      have hmade := (accounts_run hbefore hroom fun earlier hearlier =>
        hlast earlier hearlier event List.mem_cons_self).made.2
      have hall := hcount (event.now / kMinute)
      rw [List.countP_append, ← ClientState.madeIn_run, List.countP_singleton,
        if_pos (by simp)] at hall
      have hfull := hover.full
      unfold RequestEvent.made at hfull
      omega
    · exact hroom pre event hshort hover

/-- Requests that are not risk-reducing are counted before they are handed over. -/
theorem Accounts.opens_le (h : Accounts s event.now) :
    (opensIn (event.now / kMinute) s.history : ℤ) ≤ event.made s :=
  (Int.ofNat_le.mpr opensIn_le_handedIn).trans h.made.1

/-- A request keeps the budget of every minute exactly when it does not overrun it. -/
theorem opens_request_iff (h : Accounts s event.now)
    (hopens : ∀ minute, (opensIn minute s.history : ℤ) ≤ kMaxRequestsPerMinute) :
    (∀ minute, (opensIn minute (s.request event).history : ℤ) ≤ kMaxRequestsPerMinute) ↔
      ¬ Overruns s event := by
  have hle := h.opens_le
  rw [request_eq]
  split_ifs with hpasses
  · rw [passes_iff] at hpasses
    by_cases hopen : event.authorised = true ∧ event.options.riskReducing = false
    · have hmade := hpasses.2.resolve_left (by simp [hopen.2])
      simp only [opensIn_append, hopen, and_self, and_true]
      constructor
      · intro hall hover
        have hnow := hall (event.now / kMinute)
        rw [if_pos rfl] at hnow
        have hfull := hover.opens
        push_cast at hnow
        omega
      · intro hroom minute
        have hbefore := hopens minute
        split_ifs with hminute
        · by_contra hexceeded
          subst hminute
          push_cast at hexceeded
          exact hroom ⟨hopen.2, hpasses.1, hopen.1, by omega, by omega⟩
        · simpa using hbefore
    · refine iff_of_true ?_ fun hover => hopen ⟨hover.authorised, hover.opening⟩
      intro minute
      rw [opensIn_append, if_neg fun hin => hopen hin.2]
      exact hopens minute
  · refine iff_of_true ?_ fun hover => hpasses ?_
    · intro minute
      rw [opensIn_append, if_neg (by simp)]
      exact hopens minute
    · exact passes_iff.mpr ⟨hover.unmarked, .inr hover.full.le⟩

/-- One request over the budget is let through at most. -/
theorem opens_request_le (h : Accounts s event.now)
    (hopens : ∀ minute, (opensIn minute s.history : ℤ) ≤ kMaxRequestsPerMinute + 1) (minute : ℕ) :
    (opensIn minute (s.request event).history : ℤ) ≤ kMaxRequestsPerMinute + 1 := by
  have hle := h.opens_le
  have hbefore := hopens minute
  rw [request_eq]
  split_ifs with hpasses
  · rw [passes_iff] at hpasses
    rw [opensIn_append]
    split_ifs with hin
    · obtain ⟨rfl, -, hopening⟩ := hin
      change event.options.riskReducing = false at hopening
      have hmade := hpasses.2.resolve_left (by simp [hopening])
      push_cast
      omega
    · exact hbefore
  · rw [opensIn_append, if_neg (by simp)]
    exact hbefore

theorem ordered_of_prefixed (hordered : events.Pairwise fun a b => a.now ≤ b.now)
    (h : pre <+: events) : pre.Pairwise fun a b => a.now ≤ b.now :=
  hordered.sublist h.sublist

/-- A client keeps the budget of every minute exactly when no request overruns it and no count
overflows. While none does, the counts are in order in any case, and the budget is exceeded by one
request at most. -/
theorem request_budget_iff (events : List RequestEvent)
    (hordered : events.Pairwise fun a b => a.now ≤ b.now) :
    ((∀ pre now, pre <+: events → (∀ event ∈ pre, event.now ≤ now) →
        Budgeted (ClientState.start.run pre) now) ↔
      ∀ pre event, pre ++ [event] <+: events → ¬ Overruns (ClientState.start.run pre) event ∧
        ¬ Overflows (ClientState.start.run pre) event) ∧
    ((∀ pre event, pre ++ [event] <+: events → ¬ Overflows (ClientState.start.run pre) event) →
      ∀ pre now, pre <+: events → (∀ event ∈ pre, event.now ≤ now) →
        (∀ minute, (opensIn minute (ClientState.start.run pre).history : ℤ) ≤
          kMaxRequestsPerMinute + 1) ∧
        (handedIn (now / kMinute) (ClientState.start.run pre).history : ℤ) ≤
          requestsMade (ClientState.start.run pre).redis now (currentMinuteOfHour now) ∧
        requestsMade (ClientState.start.run pre).redis now (currentMinuteOfHour now) ≤
          madeIn (now / kMinute) (ClientState.start.run pre).history) := by
  have hpast (pre : List RequestEvent) (event : RequestEvent) (hpre : pre ++ [event] <+: events) :
      ∀ earlier ∈ pre, earlier.now ≤ event.now := fun earlier hearlier =>
    (List.pairwise_append.mp (ordered_of_prefixed hordered hpre)).2.2 earlier hearlier event
      List.mem_cons_self
  have haccounts (hroom : ∀ pre event, pre ++ [event] <+: events →
      ¬ Overflows (ClientState.start.run pre) event) (pre : List RequestEvent) (now : ℕ)
      (hpre : pre <+: events) (hpast : ∀ event ∈ pre, event.now ≤ now) :
      Accounts (ClientState.start.run pre) now :=
    accounts_run (ordered_of_prefixed hordered hpre)
      (fun shorter event hshorter => hroom shorter event (hshorter.trans hpre)) hpast
  have hstep (hroom : ∀ pre event, pre ++ [event] <+: events →
      ¬ Overflows (ClientState.start.run pre) event) (pre : List RequestEvent)
      (event : RequestEvent) (hpre : pre ++ [event] <+: events) :
      Accounts (ClientState.start.run pre) event.now :=
    haccounts hroom pre event.now ((List.prefix_append _ _).trans hpre) (hpast pre event hpre)
  refine ⟨⟨?_, ?_⟩, ?_⟩
  · intro hbudget
    have hbehind (pre : List RequestEvent) (event : RequestEvent)
        (hpre : pre ++ [event] <+: events) :
        Budgeted ((ClientState.start.run pre).request event) event.now := by
      rw [← ClientState.run_concat]
      refine hbudget (pre ++ [event]) event.now hpre fun earlier hearlier => ?_
      obtain hearlier | hearlier := List.mem_append.mp hearlier
      · exact hpast pre event hpre earlier hearlier
      · rw [List.mem_singleton.mp hearlier]
    have hroom (pre : List RequestEvent) (event : RequestEvent)
        (hpre : pre ++ [event] <+: events) : ¬ Overflows (ClientState.start.run pre) event :=
      fun hover => hover.not_recorded (hbehind pre event hpre).recorded
    intro pre event hpre
    have hopens := hbudget pre event.now ((List.prefix_append _ _).trans hpre)
      (hpast pre event hpre)
    exact ⟨(opens_request_iff (hstep hroom pre event hpre) hopens.opens).mp
      (hbehind pre event hpre).opens, hroom pre event hpre⟩
  · intro hkeeps pre now hpre hpast
    have hroom (pre : List RequestEvent) (event : RequestEvent)
        (hpre : pre ++ [event] <+: events) : ¬ Overflows (ClientState.start.run pre) event :=
      (hkeeps pre event hpre).2
    have hmade := (haccounts hroom pre now hpre hpast).made
    refine ⟨?_, hmade.1, hmade.2⟩
    clear hmade hpast
    induction pre using List.reverseRecOn with
    | nil => exact fun minute => Int.natCast_nonneg _
    | append_singleton pre event ih =>
      rw [ClientState.run_concat]
      exact (opens_request_iff (hstep hroom pre event hpre)
        (ih ((List.prefix_append _ _).trans hpre))).mpr (hkeeps pre event hpre).1
  · intro hroom pre now hpre hpast
    refine ⟨?_, (haccounts hroom pre now hpre hpast).made⟩
    clear hpast
    induction pre using List.reverseRecOn with
    | nil => exact fun minute => Int.natCast_nonneg _
    | append_singleton pre event ih =>
      rw [ClientState.run_concat]
      exact opens_request_le (hstep hroom pre event hpre)
        (ih ((List.prefix_append _ _).trans hpre))

/-! ## A minute of opens -/

def sampleAuth : Auth := ⟨"https://broker", "key", "cst", "token"⟩

/-- An open without a marker, answered at once. -/
def openAt (now : ℕ) : RequestEvent where
  now := now
  auth := .ok (some sampleAuth)
  exchange _ := .ok (some ⟨200, ""⟩)

theorem length_run (events : List RequestEvent) :
    (ClientState.start.run events).history.length = events.length := by
  induction events using List.reverseRecOn with
  | nil => rfl
  | append_singleton events event ih =>
    rw [ClientState.run_concat, request_eq, List.length_append, List.length_singleton, ← ih]
    split_ifs <;> exact List.length_append

/-- The counts of an hour before are gone. -/
theorem request_budget_hour :
    [openAt 0, openAt (60 * kMinute)].Pairwise (fun a b => a.now ≤ b.now) ∧
    ∀ pre now, pre <+: [openAt 0, openAt (60 * kMinute)] →
      (∀ event ∈ pre, event.now ≤ now) → Budgeted (ClientState.start.run pre) now := by
  refine ⟨by decide, (request_budget_iff _ (by decide)).1.mpr ?_⟩
  intro pre event hpre
  constructor
  · intro hover
    have hshort := hpre.length_le
    rw [List.length_append, List.length_singleton, ← length_run pre] at hshort
    have hopens : opensIn (event.now / kMinute) (ClientState.start.run pre).history ≤
        (ClientState.start.run pre).history.length := List.countP_le_length
    have hfull := hover.opens
    simp only [kMaxRequestsPerMinute, List.length_cons, List.length_nil] at hfull hshort
    omega
  · refine not_overflows_of_count (by decide) (fun minute => ?_) pre event hpre
    exact List.countP_le_length.trans_lt (by decide)

/-- Opens of one instant are all handed over while the count does not exceed the budget. -/
theorem opens_run {n : ℕ} (h : n ≤ 31) :
    (ClientState.start.run (List.replicate n (openAt 0))).history =
      List.replicate n ⟨0, false, true⟩ := by
  induction n with
  | zero => rfl
  | succ n ih =>
    have hordered : (List.replicate n (openAt 0)).Pairwise fun a b => a.now ≤ b.now :=
      List.pairwise_replicate.mpr (.inr le_rfl)
    have hroom := not_overflows_of_count hordered fun minute => by
      refine List.countP_le_length.trans_lt ?_
      rw [List.length_replicate]
      omega
    have haccounts : Accounts (ClientState.start.run (List.replicate n (openAt 0))) 0 :=
      accounts_run hordered hroom fun event hmem => by
        rw [List.eq_of_mem_replicate hmem]
        exact le_rfl
    have hmade := haccounts.made.2
    have hlength : madeIn (0 / kMinute) (ClientState.start.run
        (List.replicate n (openAt 0))).history ≤ n := by
      refine List.countP_le_length.trans ?_
      rw [length_run, List.length_replicate]
    have hpasses : (openAt 0).Passes (ClientState.start.run (List.replicate n (openAt 0))) := by
      refine passes_iff.mpr ⟨rfl, .inr ?_⟩
      unfold RequestEvent.made kMaxRequestsPerMinute
      change requestsMade _ 0 (currentMinuteOfHour 0) ≤ _
      omega
    rw [List.replicate_succ', ClientState.run_concat, request_eq, if_pos hpasses, ih (by omega),
      List.replicate_succ']
    rfl

/-- The count that equals the budget lets one more open through. -/
theorem opens_over_budget :
    opensIn 0 (ClientState.start.run (List.replicate 31 (openAt 0))).history = 31 ∧
    ¬ Budgeted (ClientState.start.run (List.replicate 31 (openAt 0))) 0 := by
  have hopens : opensIn 0 (ClientState.start.run (List.replicate 31 (openAt 0))).history = 31 := by
    rw [opens_run le_rfl]
    decide
  refine ⟨hopens, fun hbudgeted => ?_⟩
  have hle := hbudgeted.opens 0
  rw [hopens] at hle
  revert hle
  decide

end Live

end BacktestEngine
