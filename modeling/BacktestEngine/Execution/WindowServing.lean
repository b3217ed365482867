import BacktestEngine.Execution.TickCache

/-! # What the tick cache serves

What one request can do is said once, as the exchanges it has and the cache it leaves.
Over every run of requests the slices are the windows that were asked for, the cache stays
within its size, and every load is announced.
-/

namespace BacktestEngine

/-- The ticks and the boundaries of a superset are in order. -/
structure Superset.Ordered (superset : Superset) : Prop where
  rising : superset.ticks.Pairwise fun a b => a.timestamp ≤ b.timestamp
  falling : superset.boundaries.Pairwise (· ≥ ·)

/-- What a loader of so many months is trusted to return. -/
structure Superset.Covers (superset : Superset) (months : ℤ) : Prop extends
    superset.Ordered where
  depth : (superset.boundaries.length : ℤ) = months + 1

def Superset.boundary (superset : Superset) (months : ℤ) : ℤ :=
  superset.boundaries.getD months.toNat 0

/-- The ticks of a window; one that is not shifted has no upper end. -/
def Superset.window (superset : Superset) (lastMonths offsetMonths : ℤ) : List PriceData :=
  superset.ticks.filter fun tick =>
    decide (superset.boundary (lastMonths + offsetMonths) ≤ tick.timestamp) &&
      (decide (offsetMonths = 0) || decide (tick.timestamp < superset.boundary offsetMonths))

theorem Superset.Ordered.front {superset : Superset} (h : superset.Ordered) (instant : ℤ) :
    BinarySearch.Front (fun tick : PriceData => decide (tick.timestamp < instant))
      superset.ticks := by
  refine h.rising.imp fun hle hlt => ?_
  simp only [decide_eq_true_eq] at hlt ⊢
  omega

/-- A window that reaches no deeper than the superset is sliced out of it. -/
theorem sliceForWindow_eq {superset : Superset} {lastMonths offsetMonths : ℤ}
    (h : superset.Ordered) (hlast : 1 ≤ lastMonths) (hoffset : 0 ≤ offsetMonths)
    (hfits : (lastMonths + offsetMonths).toNat < superset.boundaries.length) :
    ∃ view, sliceForWindow superset lastMonths offsetMonths = .ok view ∧
      view.ticks = superset.window lastMonths offsetMonths := by
  have hdepth : lastMonths.toNat + offsetMonths.toNat = (lastMonths + offsetMonths).toNat := by
    omega
  have hshift : offsetMonths.toNat < superset.boundaries.length := by omega
  have holdest : superset.boundaries[(lastMonths + offsetMonths).toNat]? =
      some (superset.boundary (lastMonths + offsetMonths)) := by
    simp [Superset.boundary, hfits]
  have hnewest : superset.boundaries[offsetMonths.toNat]? =
      some (superset.boundary offsetMonths) := by
    simp [Superset.boundary, hshift]
  have hle : superset.boundary (lastMonths + offsetMonths) ≤ superset.boundary offsetMonths := by
    have hfalling := List.pairwise_iff_getElem.mp h.falling offsetMonths.toNat
      (lastMonths + offsetMonths).toNat hshift hfits (by omega)
    simpa [Superset.boundary, hfits, hshift] using hfalling
  have hlow := h.front (superset.boundary (lastMonths + offsetMonths))
  have hhigh := h.front (superset.boundary offsetMonths)
  have hlowHigh : ∀ tick : PriceData,
      decide (tick.timestamp < superset.boundary (lastMonths + offsetMonths)) = true →
      decide (tick.timestamp < superset.boundary offsetMonths) = true := by
    intro tick
    simp only [decide_eq_true_eq]
    omega
  have hfrom : ∀ a b : ℤ, (!decide (a < b)) = decide (b ≤ a) := by
    intro a b
    rw [← decide_not, decide_eq_decide, not_lt]
  unfold sliceForWindow
  rw [if_neg (by omega), hdepth]
  simp only [holdest, hnewest]
  refine ⟨_, rfl, ?_⟩
  simp only [SliceView.ticks, hlow.lowerBound_eq (Nat.zero_le _)]
  split_ifs with hzero
  · rw [List.take_of_length_le (by simp), hlow.drop]
    simp [Superset.window, hzero, hfrom]
  · rw [hhigh.lowerBound_eq (hlow.length_le hhigh hlowHigh), hlow.between hhigh hlowHigh]
    simp [Superset.window, hzero, hfrom]

namespace TickCache

/-! ## One request -/

/-- The readings of the clock in a trace. -/
def readings (trace : List CacheExchange) : List ℤ :=
  trace.filterMap fun
    | ⟨.now, instant⟩ => some instant
    | ⟨_, _⟩ => none

def onlyReads (trace : List CacheExchange) : Prop := ∀ exchange ∈ trace, exchange.command = .now

/-- The exchange with the hook that was passed. -/
def hookTrace (request : Request) : List CacheExchange :=
  if request.hooked then [⟨.beforeLoad, .ok ()⟩] else []

/-- What evicting leaves: some of the entries, none that was stale at every reading, and room. -/
structure Evicted (cache : TickCache) (incomingKey : String) (trace : List CacheExchange)
    (supersets : Supersets) : Prop where
  reads : onlyReads trace
  kept : ∀ key entry, supersets.lookup key = some entry → cache.supersets.lookup key = some entry
  room : supersets.entries.length < cache.maxSupersets ∨
    incomingKey ∈ supersets ∧ supersets.entries.length ≤ cache.supersets.entries.length
  stale : ∀ key entry, cache.supersets.lookup key = some entry →
    (∀ instant ∈ readings trace, cache.ttl ≤ instant - entry.loadedAt) →
    supersets.lookup key = none

variable {cache cache' : TickCache} {request : Request} {trace : List CacheExchange}
  {supersets supersets' : Supersets} {ttl : ℤ} {key : String} {entry : Entry}

theorem lookup_of_erase {other : String} (h : (supersets.erase other).lookup key = some entry) :
    supersets.lookup key = some entry := by
  by_cases hkey : key = other
  · rw [hkey, AList.lookup_erase] at h
    cases h
  · rwa [AList.lookup_erase_ne hkey] at h

theorem length_erase_le (supersets : Supersets) (other : String) :
    (supersets.erase other).entries.length ≤ supersets.entries.length :=
  (List.kerase_sublist other supersets.entries).length_le

theorem lookup_of_eraseIfStale {first : Sigma fun _ : String => Entry} {instant : ℤ}
    (h : (eraseIfStale ttl first supersets instant).lookup key = some entry) :
    supersets.lookup key = some entry := by
  unfold eraseIfStale at h
  split_ifs at h
  · exact lookup_of_erase h
  · exact h

theorem length_eraseIfStale_le (first : Sigma fun _ : String => Entry) (supersets : Supersets)
    (instant : ℤ) :
    (eraseIfStale ttl first supersets instant).entries.length ≤ supersets.entries.length := by
  unfold eraseIfStale
  split_ifs
  · exact length_erase_le supersets first.1
  · exact le_rfl

/-- The stale entries are erased, and none is added. -/
theorem eraseStale_yields {entries : List (Sigma fun _ : String => Entry)}
    (h : (eraseStale ttl entries supersets).Yields trace supersets') :
    onlyReads trace ∧
    supersets'.entries.length ≤ supersets.entries.length ∧
    (∀ key entry, supersets'.lookup key = some entry → supersets.lookup key = some entry) ∧
    ∀ key entry, ⟨key, entry⟩ ∈ entries → supersets.lookup key = some entry →
      (∀ instant ∈ readings trace, ttl ≤ instant - entry.loadedAt) →
      supersets'.lookup key = none := by
  induction entries generalizing supersets trace with
  | nil =>
    obtain ⟨rfl, rfl⟩ := h
    exact ⟨by simp [onlyReads], le_rfl, fun _ _ h => h, by simp⟩
  | cons first rest ih =>
    obtain ⟨instant, trace, rfl, h⟩ := h
    obtain ⟨hreads, hlength, hkept, hstale⟩ := ih h
    refine ⟨List.forall_mem_cons.mpr ⟨rfl, hreads⟩, ?_, ?_, ?_⟩
    · exact hlength.trans (length_eraseIfStale_le first supersets instant)
    · exact fun key entry hlookup => lookup_of_eraseIfStale (hkept key entry hlookup)
    · intro key entry hmem hlookup hinstants
      obtain ⟨hinstant, hrest⟩ := List.forall_mem_cons.mp hinstants
      cases hleft : (eraseIfStale ttl first supersets instant).lookup key with
      | none =>
        rw [Option.eq_none_iff_forall_ne_some]
        intro other hother
        rw [hkept key other hother] at hleft
        cases hleft
      | some other =>
        rcases List.mem_cons.mp hmem with rfl | hmem
        · have hgone : eraseIfStale ttl ⟨key, entry⟩ supersets instant = supersets.erase key :=
            if_pos hinstant
          rw [hgone, AList.lookup_erase] at hleft
          cases hleft
        · have hsame := lookup_of_eraseIfStale hleft
          rw [hlookup] at hsame
          cases hsame
          exact hstale key entry hmem hleft hrest

/-- Enough of the oldest entries are erased. -/
theorem eraseOldest_spec (order : Walk) (incomingKey : String) {maxSupersets fuel : ℕ}
    (hmax : 1 ≤ maxSupersets) (hfuel : supersets.entries.length ≤ fuel) :
    ((eraseOldest order incomingKey maxSupersets fuel supersets).entries.length < maxSupersets ∨
      incomingKey ∈ eraseOldest order incomingKey maxSupersets fuel supersets) ∧
    (eraseOldest order incomingKey maxSupersets fuel supersets).entries.length ≤
      supersets.entries.length ∧
    ∀ key entry,
      (eraseOldest order incomingKey maxSupersets fuel supersets).lookup key = some entry →
      supersets.lookup key = some entry := by
  induction fuel generalizing supersets with
  | zero =>
    refine ⟨.inl ?_, le_rfl, fun _ _ h => h⟩
    rw [eraseOldest]
    omega
  | succ fuel ih =>
    rw [eraseOldest]
    split_ifs with hfull
    · cases holdest : (order.walk supersets.entries).argmin fun entry => entry.2.loadedAt with
      | none =>
        rw [List.argmin_eq_none] at holdest
        have hlength := (order.perm supersets.entries).length_eq
        rw [holdest, List.length_nil] at hlength
        omega
      | some oldest =>
        have hmem := (order.perm _).mem_iff.mp (List.argmin_mem holdest)
        have hshorter : (supersets.erase oldest.1).entries.length < supersets.entries.length := by
          rw [(Keyed.entries_perm (Keyed.mem_entries.mp hmem)).length_eq]
          exact Nat.lt_succ_self _
        have hleft : (supersets.erase oldest.1).entries.length ≤ fuel := by omega
        obtain ⟨hroom, hlength, hkept⟩ := ih hleft
        exact ⟨hroom, hlength.trans hshorter.le, fun key entry h => lookup_of_erase (hkept key entry h)⟩
    · refine ⟨?_, le_rfl, fun _ _ h => h⟩
      rw [not_and_or, not_not] at hfull
      exact hfull.imp_left (by omega)

theorem evictFor_yields (cache : TickCache) {order : Walk} {incomingKey : String}
    (hmax : 1 ≤ cache.maxSupersets)
    (h : (cache.evictFor order incomingKey).Yields trace cache') :
    ∃ supersets, cache' = { cache with supersets := supersets } ∧
      Evicted cache incomingKey trace supersets := by
  obtain ⟨supersets, first, rest, rfl, hstale, rfl, rfl⟩ := Program.yields_bind.mp h
  obtain ⟨hreads, hlength, hkept, hstale⟩ := eraseStale_yields hstale
  obtain ⟨hroom, hshorter, hleft⟩ :=
    eraseOldest_spec order incomingKey hmax (le_refl supersets.entries.length)
  rw [List.append_nil]
  refine ⟨_, rfl, ?_⟩
  constructor
  · exact hreads
  · exact fun key entry hlookup => hkept key entry (hleft key entry hlookup)
  · exact hroom.imp_right fun hmem => ⟨hmem, hshorter.trans hlength⟩
  · intro key entry hlookup hinstants
    rw [Option.eq_none_iff_forall_ne_some]
    intro other hother
    have hmem := (order.perm _).mem_iff.mpr (Keyed.mem_entries.mpr hlookup)
    have hnone := hstale key entry hmem hlookup hinstants
    rw [hleft key other hother] at hnone
    cases hnone

/-- What a load outside the supersets can do. -/
inductive AdHoc (cache : TickCache) (request : Request) :
    List CacheExchange → Except String SliceView × TickCache → Prop
  | hookThrew (e : String) : request.hooked = true →
      AdHoc cache request [⟨.beforeLoad, .error e⟩] (.error e, cache)
  | answered (answer : Except String (List PriceData)) :
      AdHoc cache request
        (hookTrace request ++
          [⟨.loadWindow request.symbolsCsv request.lastMonths request.offsetMonths, answer⟩])
        (answer.map fun ticks => ⟨⟨ticks, []⟩, 0, ticks.length⟩, cache)

def missed (cache : TickCache) : TickCache := { cache with misses := cache.misses + 1 }

def loadSupersetCommand (cache : TickCache) (request : Request) : CacheCommand :=
  .loadSuperset request.symbolsCsv (max cache.defaultMonths request.monthsNeeded)

/-- What a miss can do. -/
inductive Reload (cache : TickCache) (request : Request) :
    List CacheExchange → Except String SliceView × TickCache → Prop
  | hookThrew (e : String) : request.hooked = true →
      Reload cache request [⟨.beforeLoad, .error e⟩] (.error e, missed cache)
  | loaderThrew (e : String) {evictions : List CacheExchange} {evicted : Supersets} :
      Evicted cache request.symbolsCsv evictions evicted →
      Reload cache request
        (hookTrace request ++ evictions ++ [⟨loadSupersetCommand cache request, .error e⟩])
        (.error e, { missed cache with supersets := evicted })
  | loaded (superset : Superset) (loadedAt : ℤ) {evictions : List CacheExchange}
      {evicted : Supersets} :
      Evicted cache request.symbolsCsv evictions evicted →
      Reload cache request
        (hookTrace request ++ evictions ++
          [⟨loadSupersetCommand cache request, .ok superset⟩, ⟨.now, loadedAt⟩])
        (sliceForWindow superset request.lastMonths request.offsetMonths,
          { missed cache with
            supersets := evicted.insert request.symbolsCsv ⟨superset, loadedAt⟩ })

/-- A request that a superset in the cache answers. -/
structure Hit (cache : TickCache) (request : Request) (entry : Entry) (instant : ℤ) : Prop where
  cacheable : request.cacheable = true
  present : cache.supersets.lookup request.symbolsCsv = some entry
  young : instant - entry.loadedAt < cache.ttl
  fits : entry.fits request = true

/-- What a request can do. -/
inductive Got (cache : TickCache) (request : Request) :
    List CacheExchange → Except String SliceView × TickCache → Prop
  | hit {entry : Entry} {instant : ℤ} : Hit cache request entry instant →
      Got cache request [⟨.now, instant⟩]
        (sliceForWindow entry.superset request.lastMonths request.offsetMonths,
          { cache with hits := cache.hits + 1 })
  | tooDeep {entry : Entry} {instant : ℤ} {trace : List CacheExchange}
      {result : Except String SliceView × TickCache} : request.cacheable = true →
      cache.supersets.lookup request.symbolsCsv = some entry →
      instant - entry.loadedAt < cache.ttl → entry.fits request = false →
      AdHoc cache request trace result → Got cache request (⟨.now, instant⟩ :: trace) result
  | stale {entry : Entry} {instant : ℤ} {trace : List CacheExchange}
      {result : Except String SliceView × TickCache} : request.cacheable = true →
      cache.supersets.lookup request.symbolsCsv = some entry →
      cache.ttl ≤ instant - entry.loadedAt →
      Reload cache request trace result → Got cache request (⟨.now, instant⟩ :: trace) result
  | absent {trace : List CacheExchange} {result : Except String SliceView × TickCache} :
      request.cacheable = true → cache.supersets.lookup request.symbolsCsv = none →
      Reload cache request trace result → Got cache request trace result
  | degenerate {trace : List CacheExchange} {result : Except String SliceView × TickCache} :
      request.cacheable = false → AdHoc cache request trace result → Got cache request trace result

variable {result : Except String SliceView × TickCache}

theorem callBeforeLoad_yields {answer : Except String Unit}
    (h : (callBeforeLoad request).Yields trace answer) :
    (answer = .ok () ∧ trace = hookTrace request) ∨
      ∃ e, answer = .error e ∧ request.hooked = true ∧ trace = [⟨.beforeLoad, .error e⟩] := by
  unfold callBeforeLoad at h
  unfold hookTrace
  split_ifs at h ⊢ with hhooked
  · obtain ⟨reply, rest, rfl, rfl, rfl⟩ := h
    cases answer with
    | ok => exact .inl ⟨rfl, rfl⟩
    | error e => exact .inr ⟨e, rfl, hhooked, rfl⟩
  · obtain ⟨rfl, rfl⟩ := h
    exact .inl ⟨rfl, rfl⟩

theorem loadAdHoc_yields (h : (cache.loadAdHoc request).Yields trace result) :
    AdHoc cache request trace result := by
  rw [loadAdHoc, Program.yields_bind] at h
  obtain ⟨answer, hook, rest, rfl, hhook, h⟩ := h
  rcases callBeforeLoad_yields hhook with ⟨rfl, rfl⟩ | ⟨e, rfl, hhooked, rfl⟩
  · obtain ⟨reply, rest, rfl, h⟩ := h
    have hanswered : AdHoc cache request _ _ := .answered reply
    cases reply with
    | ok ticks =>
      obtain ⟨rfl, rfl⟩ := h
      exact hanswered
    | error e =>
      obtain ⟨rfl, rfl⟩ := h
      exact hanswered
  · obtain ⟨rfl, rfl⟩ := h
    exact .hookThrew e hhooked

theorem reload_yields (hmax : 1 ≤ cache.maxSupersets)
    (h : (cache.reload request).Yields trace result) : Reload cache request trace result := by
  rw [reload, Program.yields_bind] at h
  obtain ⟨answer, hook, rest, rfl, hhook, h⟩ := h
  rcases callBeforeLoad_yields hhook with ⟨rfl, rfl⟩ | ⟨e, rfl, hhooked, rfl⟩
  · simp only [Program.yields_bind] at h
    obtain ⟨_, evictions, rest, rfl, hevicted, reply, rest, rfl, h⟩ := h
    obtain ⟨evicted, rfl, ⟨hreads, hkept, hroom, hstale⟩⟩ :=
      evictFor_yields (missed cache) hmax hevicted
    have hevicted : Evicted cache request.symbolsCsv evictions evicted :=
      ⟨hreads, hkept, hroom, hstale⟩
    rw [← List.append_assoc]
    cases reply with
    | ok superset =>
      obtain ⟨loadedAt, rest, rfl, rfl, rfl⟩ := h
      exact .loaded superset loadedAt hevicted
    | error e =>
      obtain ⟨rfl, rfl⟩ := h
      exact .loaderThrew e hevicted
  · obtain ⟨rfl, rfl⟩ := h
    exact .hookThrew e hhooked

theorem get_yields (hmax : 1 ≤ cache.maxSupersets) (h : (cache.get request).Yields trace result) :
    Got cache request trace result := by
  unfold get at h
  split_ifs at h with hcacheable
  · cases hpresent : cache.supersets.lookup request.symbolsCsv with
    | none =>
      rw [hpresent] at h
      exact .absent hcacheable hpresent (reload_yields hmax h)
    | some entry =>
      rw [hpresent] at h
      obtain ⟨instant, rest, rfl, h⟩ := h
      dsimp only at h
      split_ifs at h with hyoung hfits
      · obtain ⟨rfl, rfl⟩ := h
        exact .hit ⟨hcacheable, hpresent, hyoung, hfits⟩
      · exact .tooDeep hcacheable hpresent hyoung (by simpa using hfits) (loadAdHoc_yields h)
      · exact .stale hcacheable hpresent (not_lt.mp hyoung) (reload_yields hmax h)
  · exact .degenerate (by simpa using hcacheable) (loadAdHoc_yields h)

/-! ## Runs -/

/-- A request that has been served. -/
structure Served where
  request : Request
  trace : List CacheExchange
  result : Except String SliceView

/-- The cache serves one request after the other. -/
inductive Serves (start : TickCache) : List Served → TickCache → Prop
  | nil : Serves start [] start
  | get {served : List Served} {cache cache' : TickCache} {request : Request}
      {trace : List CacheExchange} {result : Except String SliceView} :
      Serves start served cache → (cache.get request).Yields trace (result, cache') →
      Serves start (served ++ [⟨request, trace, result⟩]) cache'

def history (served : List Served) : List CacheExchange := served.flatMap Served.trace

/-- The loader returned the superset for the key, and the clock was read then. -/
def Loaded (key : String) (superset : Superset) (loadedAt : ℤ) (trace : List CacheExchange) : Prop :=
  ∃ earlier later months, trace =
    earlier ++ ⟨.loadSuperset key months, .ok superset⟩ :: ⟨.now, loadedAt⟩ :: later

/-- The loader returns what it is trusted to return. -/
def Trusted (trace : List CacheExchange) : Prop :=
  ∀ key months superset, (⟨.loadSuperset key months, .ok superset⟩ : CacheExchange) ∈ trace →
    superset.Covers months

/-- What holds of the cache after a history. -/
structure Sound (start : TickCache) (past : List CacheExchange) (cache : TickCache) : Prop where
  ttl : cache.ttl = start.ttl
  maxSupersets : cache.maxSupersets = start.maxSupersets
  room : cache.supersets.entries.length ≤ cache.maxSupersets
  loaded : ∀ key entry, cache.supersets.lookup key = some entry →
    Loaded key entry.superset entry.loadedAt past

variable {start : TickCache} {past : List CacheExchange} {superset : Superset} {loadedAt : ℤ}

theorem Loaded.append_right (h : Loaded key superset loadedAt past) (trace : List CacheExchange) :
    Loaded key superset loadedAt (past ++ trace) := by
  obtain ⟨earlier, later, months, rfl⟩ := h
  exact ⟨earlier, later ++ trace, months, by simp⟩

theorem Loaded.append_left (h : Loaded key superset loadedAt trace) (past : List CacheExchange) :
    Loaded key superset loadedAt (past ++ trace) := by
  obtain ⟨earlier, later, months, rfl⟩ := h
  exact ⟨past ++ earlier, later, months, by simp⟩

theorem Loaded.ordered (h : Loaded key superset loadedAt past) (htrusted : Trusted past) :
    superset.Ordered := by
  obtain ⟨earlier, later, months, rfl⟩ := h
  exact (htrusted key months superset (by simp)).toOrdered

/-- After evicting there is room for the superset that comes in. -/
theorem Evicted.length_insert {evicted : Supersets} {evictions : List CacheExchange}
    (h : Evicted cache key evictions evicted)
    (hroom : cache.supersets.entries.length ≤ cache.maxSupersets) (entry : Entry) :
    (evicted.insert key entry).entries.length ≤ cache.maxSupersets := by
  cases hlookup : evicted.lookup key with
  | none =>
    have hlt : evicted.entries.length < cache.maxSupersets := by
      rcases h.room with hlt | ⟨hmem, -⟩
      · exact hlt
      · exact absurd hmem (AList.lookup_eq_none.mp hlookup)
    rw [Keyed.entries_insert_fresh hlookup]
    exact hlt
  | some old =>
    have hle : evicted.entries.length ≤ cache.maxSupersets := by
      rcases h.room with hlt | ⟨-, hle⟩
      · exact hlt.le
      · exact hle.trans hroom
    rw [Keyed.entries_insert, List.length_cons]
    rwa [(Keyed.entries_perm hlookup).length_eq, List.length_cons] at hle

theorem AdHoc.cache_eq (h : AdHoc cache request trace result) : result.2 = cache := by
  cases h <;> rfl

theorem Sound.reload {past trace : List CacheExchange} (h : Sound start past cache)
    (hreload : Reload cache request trace result) : Sound start (past ++ trace) result.2 := by
  have hkeep : ∀ evicted evictions, Evicted cache request.symbolsCsv evictions evicted →
      ∀ key entry, evicted.lookup key = some entry →
        Loaded key entry.superset entry.loadedAt (past ++ trace) := fun evicted _ hevicted key entry hl =>
    (h.loaded key entry (hevicted.kept key entry hl)).append_right trace
  cases hreload with
  | hookThrew e =>
    exact ⟨h.ttl, h.maxSupersets, h.room, fun key entry hl => (h.loaded key entry hl).append_right _⟩
  | loaderThrew e hevicted =>
    refine ⟨h.ttl, h.maxSupersets, ?_, hkeep _ _ hevicted⟩
    rcases hevicted.room with hlt | ⟨-, hle⟩
    · exact hlt.le
    · exact hle.trans h.room
  | loaded superset loadedAt hevicted =>
    refine ⟨h.ttl, h.maxSupersets, hevicted.length_insert h.room _, ?_⟩
    intro key entry hlookup
    dsimp only at hlookup
    by_cases hkey : key = request.symbolsCsv
    · rw [hkey, AList.lookup_insert] at hlookup
      cases hlookup
      rw [hkey]
      exact Loaded.append_left ⟨_, [], _, rfl⟩ past
    · rw [AList.lookup_insert_ne hkey] at hlookup
      exact hkeep _ _ hevicted key entry hlookup

/-- A request keeps the cache within its size and every entry a superset that was loaded. -/
theorem Sound.got (h : Sound start past cache) (hgot : Got cache request trace result) :
    Sound start (past ++ trace) result.2 := by
  have hread : ∀ instant : ℤ, Sound start (past ++ [⟨.now, instant⟩]) cache := fun instant =>
    ⟨h.ttl, h.maxSupersets, h.room, fun key entry hl => (h.loaded key entry hl).append_right _⟩
  cases hgot with
  | hit hhit => exact ⟨h.ttl, h.maxSupersets, h.room, (hread _).loaded⟩
  | tooDeep hcacheable hpresent hyoung hfits hadhoc =>
    rw [hadhoc.cache_eq]
    exact ⟨h.ttl, h.maxSupersets, h.room, fun key entry hl => (h.loaded key entry hl).append_right _⟩
  | @stale entry instant trace _ hcacheable hpresent hold hreload =>
    have hafter := (hread instant).reload hreload
    rwa [List.append_assoc] at hafter
  | absent hcacheable habsent hreload => exact h.reload hreload
  | degenerate hdegenerate hadhoc =>
    rw [hadhoc.cache_eq]
    exact ⟨h.ttl, h.maxSupersets, h.room, fun key entry hl => (h.loaded key entry hl).append_right _⟩

theorem sound_make (ttl : ℤ) (maxSupersets : ℕ) (defaultMonths : ℤ) :
    Sound (make ttl maxSupersets defaultMonths) [] (make ttl maxSupersets defaultMonths) where
  ttl := rfl
  maxSupersets := rfl
  room := Nat.zero_le _
  loaded _ _ h := by cases h

theorem Serves.sound {maxSupersets : ℕ} {defaultMonths : ℤ} {served : List Served}
    (h : Serves (make ttl maxSupersets defaultMonths) served cache) :
    Sound (make ttl maxSupersets defaultMonths) (history served) cache := by
  induction h with
  | nil => exact sound_make ttl maxSupersets defaultMonths
  | get hserves hget ih =>
    have hmax : 1 ≤ max 1 maxSupersets := le_max_left _ _
    have hgot := get_yields (ih.maxSupersets ▸ hmax) hget
    simpa [history] using ih.got hgot

/-! ## What a run serves -/

/-- Whether a command asks a loader. -/
def isLoad : CacheCommand → Bool
  | .now => false
  | .beforeLoad => false
  | .loadSuperset _ _ => true
  | .loadWindow _ _ _ => true

/-- The hook and the loaders that were asked. -/
def asked (trace : List CacheExchange) : List CacheCommand :=
  (trace.map fun exchange => exchange.command).filter fun
    | .now => false
    | _ => true

/-- The result of a request that no one-off load served is the window of a superset of its key,
loaded by the request itself or less than the time to live before. -/
def ServesWindow (ttl : ℤ) (request : Request) (past trace : List CacheExchange)
    (result : Except String SliceView) : Prop :=
  request.cacheable = true →
  (∀ lastMonths offsetMonths, CacheCommand.loadWindow request.symbolsCsv lastMonths offsetMonths ∉
    asked trace) →
  ∀ view, result = .ok view → ∃ superset loadedAt,
    view.ticks = superset.window request.lastMonths request.offsetMonths ∧
    (Loaded request.symbolsCsv superset loadedAt trace ∨
      Loaded request.symbolsCsv superset loadedAt past ∧
        ∃ instant : ℤ, trace = [⟨.now, instant⟩] ∧ instant - loadedAt < ttl)

/-- A superset that is young but too shallow for the request stays. -/
def KeepsShallow (cache : TickCache) (request : Request) (trace : List CacheExchange)
    (cache' : TickCache) : Prop :=
  ∀ (entry : Entry) (instant : ℤ) later, cache.supersets.lookup request.symbolsCsv = some entry →
    trace = ⟨.now, instant⟩ :: later → instant - entry.loadedAt < cache.ttl →
    entry.fits request = false → cache'.supersets.lookup request.symbolsCsv = some entry

/-- The hook is asked once before the one load, and not on a hit. -/
def Announces (cache : TickCache) (request : Request) (trace : List CacheExchange)
    (result : Except String SliceView) : Prop :=
  request.hooked = true →
    ((∃ entry instant, Hit cache request entry instant ∧ trace = [⟨.now, instant⟩]) ∧
        asked trace = [] ∨
      asked trace = [.beforeLoad] ∧ (∃ e, result = .error e) ∨
      ∃ load, isLoad load = true ∧ asked trace = [.beforeLoad, load]) ∧
    ∀ entry instant later, Hit cache request entry instant → trace = ⟨.now, instant⟩ :: later →
      asked trace = []

/-- After the loader of supersets has thrown the key has no entry. -/
def ForgetsOnThrow (request : Request) (trace : List CacheExchange)
    (result : Except String SliceView) (cache' : TickCache) : Prop :=
  ∀ key months e, (⟨.loadSuperset key months, .error e⟩ : CacheExchange) ∈ trace →
    result = .error e ∧ key = request.symbolsCsv ∧ cache'.supersets.lookup key = none

theorem cacheable_iff : request.cacheable = true ↔
    1 ≤ request.lastMonths ∧ 0 ≤ request.offsetMonths := by
  simp [Request.cacheable]

theorem monthsNeeded_eq (h : request.cacheable = true) :
    request.monthsNeeded = request.lastMonths + request.offsetMonths := by
  simp [Request.monthsNeeded, h]

theorem asked_append (trace trace' : List CacheExchange) :
    asked (trace ++ trace') = asked trace ++ asked trace' := by
  simp [asked]

theorem asked_of_onlyReads (h : onlyReads trace) : asked trace = [] := by
  simp only [asked, List.filter_eq_nil_iff, List.mem_map]
  rintro command ⟨exchange, hmem, rfl⟩
  simp [h exchange hmem]

theorem AdHoc.window {past : List CacheExchange} (h : AdHoc cache request trace result)
    (instants : List CacheExchange) :
    ServesWindow ttl request past (instants ++ trace) result.1 := by
  intro _ hnone view hview
  cases h with
  | hookThrew e _ => cases hview
  | answered answer =>
    refine absurd ?_ (hnone request.lastMonths request.offsetMonths)
    rw [asked_append, asked_append]
    exact List.mem_append_right _ (List.mem_append_right _ (by simp [asked]))

theorem Reload.window {past : List CacheExchange} (h : Reload cache request trace result)
    (htrusted : Trusted trace) (instants : List CacheExchange) :
    ServesWindow ttl request past (instants ++ trace) result.1 := by
  intro hcacheable hnone view hview
  cases h with
  | hookThrew e _ => cases hview
  | loaderThrew e _ => cases hview
  | loaded superset loadedAt hevicted =>
    obtain ⟨hlast, hoffset⟩ := cacheable_iff.mp hcacheable
    have hcovers := htrusted request.symbolsCsv (max cache.defaultMonths request.monthsNeeded)
      superset (by simp [loadSupersetCommand])
    have hdepth := hcovers.depth
    rw [monthsNeeded_eq hcacheable] at hdepth
    obtain ⟨view', hslice, hticks⟩ := sliceForWindow_eq hcovers.toOrdered hlast hoffset (by omega)
    rw [hslice] at hview
    cases hview
    exact ⟨superset, loadedAt, hticks, .inl (Loaded.append_left ⟨_, [], _, rfl⟩ instants)⟩

theorem AdHoc.announces (h : AdHoc cache request trace result) (hhooked : request.hooked = true)
    {instants : List CacheExchange} (hinstants : onlyReads instants) :
    asked (instants ++ trace) = [.beforeLoad] ∧ (∃ e, result.1 = .error e) ∨
      ∃ load, isLoad load = true ∧ asked (instants ++ trace) = [.beforeLoad, load] := by
  rw [asked_append, asked_of_onlyReads hinstants, List.nil_append]
  cases h with
  | hookThrew e _ => exact .inl ⟨rfl, e, rfl⟩
  | answered answer =>
    exact .inr ⟨.loadWindow request.symbolsCsv request.lastMonths request.offsetMonths, rfl,
      by simp [hookTrace, hhooked, asked]⟩

theorem Reload.announces (h : Reload cache request trace result)
    (hhooked : request.hooked = true) {instants : List CacheExchange}
    (hinstants : onlyReads instants) :
    asked (instants ++ trace) = [.beforeLoad] ∧ (∃ e, result.1 = .error e) ∨
      ∃ load, isLoad load = true ∧ asked (instants ++ trace) = [.beforeLoad, load] := by
  rw [asked_append, asked_of_onlyReads hinstants, List.nil_append]
  cases h with
  | hookThrew e _ => exact .inl ⟨rfl, e, rfl⟩
  | loaderThrew e hevicted =>
    refine .inr ⟨loadSupersetCommand cache request, rfl, ?_⟩
    rw [asked_append, asked_append, asked_of_onlyReads hevicted.reads]
    simp [hookTrace, hhooked, asked, loadSupersetCommand]
  | loaded superset loadedAt hevicted =>
    refine .inr ⟨loadSupersetCommand cache request, rfl, ?_⟩
    rw [asked_append, asked_append, asked_of_onlyReads hevicted.reads]
    simp [hookTrace, hhooked, asked, loadSupersetCommand]

theorem readings_append (trace trace' : List CacheExchange) :
    readings (trace ++ trace') = readings trace ++ readings trace' :=
  List.filterMap_append

theorem not_mem_hookTrace {months : ℤ} {answer : Except String Superset} :
    (⟨.loadSuperset key months, answer⟩ : CacheExchange) ∉ hookTrace request := by
  intro hmem
  unfold hookTrace at hmem
  split_ifs at hmem
  · cases List.mem_singleton.mp hmem
  · cases hmem

theorem AdHoc.not_mem {months : ℤ} {answer : Except String Superset}
    (h : AdHoc cache request trace result) :
    (⟨.loadSuperset key months, answer⟩ : CacheExchange) ∉ trace := by
  intro hmem
  cases h with
  | hookThrew e _ => cases List.mem_singleton.mp hmem
  | answered reply =>
    rw [List.mem_append, or_iff_right not_mem_hookTrace] at hmem
    cases List.mem_singleton.mp hmem

/-- The entry of a key whose superset was stale or absent is gone when the loader throws. -/
theorem Reload.forgets (h : Reload cache request trace result)
    (hgone : ∀ entry, cache.supersets.lookup request.symbolsCsv = some entry →
      ∀ instant ∈ readings trace, cache.ttl ≤ instant - entry.loadedAt) :
    ForgetsOnThrow request trace result.1 result.2 := by
  have hnone : ∀ evictions evicted, Evicted cache request.symbolsCsv evictions evicted →
      (∀ instant ∈ readings evictions, instant ∈ readings trace) →
      evicted.lookup request.symbolsCsv = none := by
    intro evictions evicted hevicted hsub
    rw [Option.eq_none_iff_forall_ne_some]
    intro entry hlookup
    have hpresent := hevicted.kept _ entry hlookup
    have hstale := hevicted.stale _ entry hpresent fun instant hinstant =>
      hgone entry hpresent instant (hsub instant hinstant)
    rw [hlookup] at hstale
    cases hstale
  intro key months e hthrown
  have hreads : ∀ {evictions : List CacheExchange}, onlyReads evictions →
      (⟨.loadSuperset key months, .error e⟩ : CacheExchange) ∉ evictions := by
    intro evictions hevictions hmem
    cases hevictions _ hmem
  cases h with
  | hookThrew e' _ => cases List.mem_singleton.mp hthrown
  | loaderThrew e' hevicted =>
    rw [List.mem_append, List.mem_append, or_iff_right (not_or.mpr
      ⟨not_mem_hookTrace, hreads hevicted.reads⟩), List.mem_singleton] at hthrown
    cases hthrown
    refine ⟨rfl, rfl, hnone _ _ hevicted fun instant hinstant => ?_⟩
    rw [readings_append, readings_append]
    exact List.mem_append_left _ (List.mem_append_right _ hinstant)
  | loaded superset loadedAt hevicted =>
    rw [List.mem_append, List.mem_append, or_iff_right (not_or.mpr
      ⟨not_mem_hookTrace, hreads hevicted.reads⟩)] at hthrown
    rcases List.mem_cons.mp hthrown with hload | hread
    · cases hload
    · cases List.mem_singleton.mp hread

/-! Each property of a request, by what the request can do. -/

theorem onlyReads_singleton (instant : ℤ) : onlyReads [⟨.now, instant⟩] := by
  simp [onlyReads]

theorem Got.window (h : Got cache request trace result) (hsound : Sound start past cache)
    (htrusted : Trusted (past ++ trace)) :
    ServesWindow cache.ttl request past trace result.1 := by
  have hlater : Trusted trace := fun key months superset hmem =>
    htrusted key months superset (List.mem_append_right past hmem)
  cases h with
  | @hit entry instant hhit =>
    intro _ _ view hview
    have hloaded := hsound.loaded _ entry hhit.present
    have hordered := hloaded.ordered fun key months superset hmem =>
      htrusted key months superset (List.mem_append_left _ hmem)
    obtain ⟨hlast, hoffset⟩ := cacheable_iff.mp hhit.cacheable
    have hfits := of_decide_eq_true hhit.fits
    rw [monthsNeeded_eq hhit.cacheable] at hfits
    obtain ⟨view', hslice, hticks⟩ := sliceForWindow_eq hordered hlast hoffset hfits
    rw [hslice] at hview
    cases hview
    exact ⟨entry.superset, entry.loadedAt, hticks, .inr ⟨hloaded, instant, rfl, hhit.young⟩⟩
  | @tooDeep entry instant _ _ _ _ _ _ hadhoc => exact hadhoc.window [⟨.now, instant⟩]
  | @stale entry instant _ _ _ _ _ hreload =>
    exact hreload.window (fun key months superset hmem =>
      hlater key months superset (List.mem_cons_of_mem _ hmem)) [⟨.now, instant⟩]
  | absent _ _ hreload => exact hreload.window hlater []
  | degenerate _ hadhoc => exact hadhoc.window []

theorem Got.keepsShallow (h : Got cache request trace result) :
    KeepsShallow cache request trace result.2 := by
  intro entry instant later hpresent htrace hyoung hfits
  cases h with
  | hit hhit => exact hpresent
  | tooDeep _ _ _ _ hadhoc => rwa [hadhoc.cache_eq]
  | stale _ hstale hold _ =>
    rw [hpresent] at hstale
    cases hstale
    cases htrace
    exact absurd hyoung hold.not_gt
  | absent _ habsent _ =>
    rw [hpresent] at habsent
    cases habsent
  | degenerate _ hadhoc => rwa [hadhoc.cache_eq]

theorem Got.announces (h : Got cache request trace result) :
    Announces cache request trace result.1 := by
  intro hhooked
  cases h with
  | @hit entry instant hhit => exact ⟨.inl ⟨⟨entry, instant, hhit, rfl⟩, rfl⟩, fun _ _ _ _ _ => rfl⟩
  | @tooDeep entry instant _ _ _ hpresent _ hfits hadhoc =>
    refine ⟨.inr (hadhoc.announces hhooked (onlyReads_singleton instant)), ?_⟩
    intro other _ _ hhit _
    have hsame := hhit.present
    rw [hpresent] at hsame
    cases hsame
    rw [hhit.fits] at hfits
    cases hfits
  | @stale entry instant _ _ _ hpresent hold hreload =>
    refine ⟨.inr (hreload.announces hhooked (onlyReads_singleton instant)), ?_⟩
    intro other _ _ hhit htrace
    have hsame := hhit.present
    rw [hpresent] at hsame
    cases hsame
    cases htrace
    exact absurd hhit.young hold.not_gt
  | absent _ habsent hreload =>
    refine ⟨.inr (hreload.announces hhooked (by simp [onlyReads] : onlyReads [])), ?_⟩
    intro other _ _ hhit _
    rw [hhit.present] at habsent
    cases habsent
  | degenerate hdegenerate hadhoc =>
    refine ⟨.inr (hadhoc.announces hhooked (by simp [onlyReads] : onlyReads [])), ?_⟩
    intro other _ _ hhit _
    rw [hhit.cacheable] at hdegenerate
    cases hdegenerate

theorem Got.forgets (h : Got cache request trace result)
    (hclock : (readings trace).Pairwise (· ≤ ·)) :
    ForgetsOnThrow request trace result.1 result.2 := by
  cases h with
  | hit _ =>
    intro key months e hthrown
    cases List.mem_singleton.mp hthrown
  | tooDeep _ _ _ _ hadhoc =>
    intro key months e hthrown
    rcases List.mem_cons.mp hthrown with hread | hthrown
    · cases hread
    · exact absurd hthrown hadhoc.not_mem
  | @stale entry instant _ _ _ hpresent hold hreload =>
    intro key months e hthrown
    rcases List.mem_cons.mp hthrown with hread | hthrown
    · cases hread
    · refine hreload.forgets ?_ key months e hthrown
      intro other hother t ht
      rw [hpresent] at hother
      cases hother
      have hle : instant ≤ t := (List.pairwise_cons.mp hclock).1 t ht
      omega
  | absent _ habsent hreload =>
    refine hreload.forgets fun entry hpresent => ?_
    rw [hpresent] at habsent
    cases habsent
  | degenerate _ hadhoc =>
    intro key months e hthrown
    exact absurd hthrown hadhoc.not_mem

variable {maxSupersets : ℕ} {defaultMonths : ℤ} {served : List Served}

/-- What every request of every run is served. -/
theorem get_serves {reply : Except String SliceView}
    (hserves : Serves (make ttl maxSupersets defaultMonths) served cache)
    (hget : (cache.get request).Yields trace (reply, cache'))
    (htrusted : Trusted (history served ++ trace))
    (hclock : (readings (history served ++ trace)).Pairwise (· ≤ ·)) :
    ServesWindow ttl request (history served) trace reply ∧
      cache'.supersets.entries.length ≤ max 1 maxSupersets ∧
      KeepsShallow cache request trace cache' ∧
      Announces cache request trace reply ∧
      ForgetsOnThrow request trace reply cache' := by
  have hsound := hserves.sound
  have hmax : cache.maxSupersets = max 1 maxSupersets := hsound.maxSupersets
  have hgot := get_yields (hmax ▸ le_max_left _ _) hget
  have hafter := hsound.got hgot
  have hinstants : (readings trace).Pairwise (· ≤ ·) := by
    rw [readings_append] at hclock
    exact (List.pairwise_append.mp hclock).2.1
  have hwindow := hgot.window hsound htrusted
  rw [hsound.ttl] at hwindow
  exact ⟨hwindow, hafter.room.trans hafter.maxSupersets.le, hgot.keepsShallow, hgot.announces,
    hgot.forgets hinstants⟩

/-! A cache that loads four months of one symbol, and is then asked again. -/

def fourMonths : Superset :=
  ⟨[⟨100, 99, -100, "EURUSD"⟩, ⟨100, 99, -10, "EURUSD"⟩], [0, -30, -60, -90, -120]⟩

def months (lastMonths : ℤ) : Request where
  symbolsCsv := "EURUSD"
  lastMonths := lastMonths
  offsetMonths := 0
  hooked := true
  order := ⟨id, fun _ => .refl _⟩

def loading : List CacheExchange :=
  [⟨.beforeLoad, .ok ()⟩, ⟨.loadSuperset "EURUSD" 4, .ok fourMonths⟩, ⟨.now, (5 : ℤ)⟩]

def resident (ttl : ℤ) : TickCache :=
  { make ttl 1 4 with supersets := AList.insert "EURUSD" ⟨fourMonths, 5⟩ ∅, misses := 1 }

theorem covers_fourMonths : fourMonths.Covers 4 where
  rising := by decide
  falling := by decide
  depth := rfl

theorem loading_yields (ttl : ℤ) : ((make ttl 1 4).get (months 2)).Yields loading
    (sliceForWindow fourMonths 2 0, resident ttl) :=
  ⟨.ok (), _, rfl, .ok fourMonths, _, rfl, (5 : ℤ), _, rfl, rfl, rfl⟩

theorem serves_loading (ttl : ℤ) : Serves (make ttl 1 4)
    [⟨months 2, loading, sliceForWindow fourMonths 2 0⟩] (resident ttl) :=
  .get .nil (loading_yields ttl)

theorem hit_yields : ((resident 600).get (months 2)).Yields [⟨.now, (7 : ℤ)⟩]
    (sliceForWindow fourMonths 2 0, { resident 600 with hits := 1 }) :=
  ⟨(7 : ℤ), [], rfl, rfl, rfl⟩

theorem trusted_loading : Trusted (loading ++ [⟨.now, (7 : ℤ)⟩]) := by
  intro key months superset hmem
  rcases List.mem_cons.mp hmem with hhook | hmem
  · cases hhook
  rcases List.mem_cons.mp hmem with hload | hmem
  · cases hload
    exact covers_fourMonths
  rcases List.mem_cons.mp hmem with hread | hmem
  · cases hread
  · cases List.mem_singleton.mp hmem

theorem get_serves_hit :
    ServesWindow 600 (months 2) loading [⟨.now, (7 : ℤ)⟩] (sliceForWindow fourMonths 2 0) ∧
      ({ resident 600 with hits := 1 } : TickCache).supersets.entries.length ≤ max 1 1 ∧
      KeepsShallow (resident 600) (months 2) [⟨.now, (7 : ℤ)⟩] { resident 600 with hits := 1 } ∧
      Announces (resident 600) (months 2) [⟨.now, (7 : ℤ)⟩] (sliceForWindow fourMonths 2 0) ∧
      ForgetsOnThrow (months 2) [⟨.now, (7 : ℤ)⟩] (sliceForWindow fourMonths 2 0)
        { resident 600 with hits := 1 } :=
  get_serves (serves_loading 600) hit_yields trusted_loading (by decide)

theorem Loaded.mem_readings (h : Loaded key superset loadedAt trace) : loadedAt ∈ readings trace := by
  obtain ⟨earlier, later, months, rfl⟩ := h
  rw [readings_append]
  exact List.mem_append_right _ List.mem_cons_self

/-- With no time to live a superset that was just loaded is served although none was loaded less than
that time before, and a one-off load that throws leaves the entry of its key. -/
theorem served_too_old_and_kept :
    (∃ view cache', ((make 0 1 4).get (months 2)).Yields loading (.ok view, cache') ∧
      (months 2).cacheable = true ∧
      (∀ lastMonths offsetMonths,
        CacheCommand.loadWindow "EURUSD" lastMonths offsetMonths ∉ asked loading) ∧
      ∀ superset loadedAt, Loaded "EURUSD" superset loadedAt loading →
        ∀ instant ∈ readings loading, ¬ instant - loadedAt < 0) ∧
    ∃ trace cache', ((resident 600).get (months 9)).Yields trace (.error "down", cache') ∧
      cache'.supersets.lookup "EURUSD" = some ⟨fourMonths, 5⟩ := by
  constructor
  · refine ⟨⟨fourMonths, 1, 1⟩, resident 0, ?_, rfl, ?_, ?_⟩
    · exact loading_yields 0
    · intro lastMonths offsetMonths hmem
      simp [asked, loading] at hmem
    · intro superset loadedAt hloaded instant hinstant
      have hloadedAt := hloaded.mem_readings
      simp only [readings, loading, List.filterMap_cons, List.filterMap_nil,
        List.mem_singleton] at hloadedAt hinstant
      omega
  · exact ⟨[⟨.now, (7 : ℤ)⟩, ⟨.beforeLoad, .ok ()⟩, ⟨.loadWindow "EURUSD" 9 0, .error "down"⟩],
      resident 600, ⟨(7 : ℤ), _, rfl, .ok (), _, rfl, .error "down", _, rfl, rfl, rfl⟩, rfl⟩

end TickCache

end BacktestEngine
