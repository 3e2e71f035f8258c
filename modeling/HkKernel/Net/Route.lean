import Mathlib.Data.List.Basic

/-!
# The routing table

The IPv4 routing table (`net/route.rs`) is a list of routes in insertion order: each
`add_*_route` pushes one route at its end and `clear_routes` empties it, which is all a
sequence of calls can do (`routes`). `route_lookup` scans the whole table once, keeping the
first matching route of the longest prefix seen so far, and answers with its device and next
hop, or `NoRoute`.

An address is its 32-bit value; `Ipv4Addr`, `NetDevice` and `NetError` are defined outside
the source here, so an address is a `UInt32`, a device is any type `Dev`, and `NetError` has
the one variant the table returns. The routes' `flags` and `metric` are written by the
`add_*_route` functions but read by nothing, and are left out.

* `Selected`: what the lookup should select, the route of longest prefix among those that
  match, the first one on a tie; at most one route is selected (`Selected.unique`);
* `loopInv_foldl`: the loop invariant of `route_lookup`, from which
  `routeLookup_longest_prefix` says the lookup answers with the selected route, and with
  `NoRoute` exactly when no route matches, for every table a sequence of calls builds;
* `routeLookup_append`: so a route an `add_*_route` call pushes takes over exactly the
  destinations it matches more specifically than every route before it: a default route only
  those no route matched, a host route its destination unless a host route to it came first.
-/

namespace HkKernel.Net

/-- The number of bits set in a word (`u32::count_ones`). -/
def popcount (x : UInt32) : Nat := (List.range 32).countP fun i => x.toNat.testBit i

/-- `NetError`, with the variant the routing table returns. -/
inductive NetError
  | noRoute
  deriving DecidableEq, Repr

/-- A route entry (`Route`), on devices `Dev`. -/
structure Route (Dev : Type) where
  dest : UInt32
  netmask : UInt32
  /-- `0` for a directly connected network. -/
  gateway : UInt32
  dev : Dev
  deriving DecidableEq, Repr

variable {Dev : Type}

namespace Route

variable (r : Route Dev)

/-- `Route::matches` (`matches` is a keyword of Lean). -/
def matchesDest (d : UInt32) : Bool := (d &&& r.netmask) == (r.dest &&& r.netmask)

/-- `Route::is_gateway`. -/
def isGateway : Bool := r.gateway != 0

/-- `Route::prefix_len`. -/
def prefixLen : Nat := popcount r.netmask

end Route

/-! ## The table and its mutators -/

/-- `add_interface_route`. -/
def addInterfaceRoute (t : List (Route Dev)) (dest netmask : UInt32) (dev : Dev) :
    List (Route Dev) :=
  t ++ [⟨dest, netmask, 0, dev⟩]

/-- `add_default_route`. -/
def addDefaultRoute (t : List (Route Dev)) (gateway : UInt32) (dev : Dev) : List (Route Dev) :=
  t ++ [⟨0, 0, gateway, dev⟩]

/-- `add_host_route`. -/
def addHostRoute (t : List (Route Dev)) (dest gateway : UInt32) (dev : Dev) : List (Route Dev) :=
  t ++ [⟨dest, 0xFFFFFFFF, gateway, dev⟩]

/-- `clear_routes`. -/
def clearRoutes (_t : List (Route Dev)) : List (Route Dev) := []

/-- A call that changes the routing table. -/
inductive RouteOp (Dev : Type)
  | addInterfaceRoute (dest netmask : UInt32) (dev : Dev)
  | addDefaultRoute (gateway : UInt32) (dev : Dev)
  | addHostRoute (dest gateway : UInt32) (dev : Dev)
  | clearRoutes

/-- The table after a call. -/
def RouteOp.apply (t : List (Route Dev)) : RouteOp Dev → List (Route Dev)
  | .addInterfaceRoute dest netmask dev => Net.addInterfaceRoute t dest netmask dev
  | .addDefaultRoute gateway dev => Net.addDefaultRoute t gateway dev
  | .addHostRoute dest gateway dev => Net.addHostRoute t dest gateway dev
  | .clearRoutes => Net.clearRoutes t

/-- The table after a sequence of calls, from the empty table at boot. -/
def routes (ops : List (RouteOp Dev)) : List (Route Dev) := ops.foldl RouteOp.apply []

/-! ## Lookup -/

/-- One pass of the loop of `route_lookup`: the best route so far and its prefix length. -/
def lookupStep (d : UInt32) (acc : Option (Route Dev) × Nat) (r : Route Dev) :
    Option (Route Dev) × Nat :=
  if r.matchesDest d then
    if acc.1.isNone || r.prefixLen > acc.2 then (some r, r.prefixLen) else acc
  else acc

/-- `route_lookup`: the output device and the next hop. -/
def routeLookup (t : List (Route Dev)) (d : UInt32) : Except NetError (Dev × UInt32) :=
  match (t.foldl (lookupStep d) (none, 0)).1 with
  | some r => .ok (r.dev, if r.isGateway then r.gateway else d)
  | none => .error .noRoute

/-- The route at index `i` of `t` is the one to select for `d`: it matches `d`, no matching
    route has a longer prefix, and every matching route before it has a shorter one. -/
structure Selected (t : List (Route Dev)) (d : UInt32) (i : Nat) (b : Route Dev) : Prop where
  get : t[i]? = some b
  matching : b.matchesDest d = true
  longest : ∀ r ∈ t, r.matchesDest d = true → r.prefixLen ≤ b.prefixLen
  earliest :
    ∀ j r, j < i → t[j]? = some r → r.matchesDest d = true → r.prefixLen < b.prefixLen

namespace Selected

variable {t p : List (Route Dev)} {d : UInt32} {i : Nat} {b r : Route Dev}

/-- At most one route is selected. -/
theorem unique {i' : Nat} {b' : Route Dev} (h : Selected t d i b) (h' : Selected t d i' b') :
    i = i' ∧ b = b' := by
  have hle := h'.longest b (List.getElem?_mem h.get) h.matching
  have hle' := h.longest b' (List.getElem?_mem h'.get) h'.matching
  have hi : i = i' := by
    rcases Nat.lt_trichotomy i i' with hlt | heq | hlt
    · exact absurd (h'.earliest i b hlt h.get h.matching) (by omega)
    · exact heq
    · exact absurd (h.earliest i' b' hlt h'.get h'.matching) (by omega)
  subst hi
  exact ⟨rfl, Option.some.inj (h.get.symm.trans h'.get)⟩

theorem lt_length (h : Selected p d i b) : i < p.length :=
  (List.getElem?_eq_some_iff.1 h.get).1

/-- A route appended after the selected one, matching with no longer prefix or not matching,
    leaves it selected. -/
theorem append (h : Selected p d i b)
    (hr : r.matchesDest d = true → r.prefixLen ≤ b.prefixLen) :
    Selected (p ++ [r]) d i b where
  get := by rw [List.getElem?_append_left h.lt_length, h.get]
  matching := h.matching
  longest r' hr' hm := by
    rcases List.mem_append.1 hr' with hr' | hr'
    · exact h.longest r' hr' hm
    · obtain rfl := List.mem_singleton.1 hr'
      exact hr hm
  earliest j r' hj hget hm := by
    rw [List.getElem?_append_left (by have := h.lt_length; omega)] at hget
    exact h.earliest j r' hj hget hm

end Selected

/-- A matching route appended after routes that match only with shorter prefixes is selected. -/
theorem selected_last {p : List (Route Dev)} {d : UInt32} {r : Route Dev}
    (hm : r.matchesDest d = true)
    (hp : ∀ r' ∈ p, r'.matchesDest d = true → r'.prefixLen < r.prefixLen) :
    Selected (p ++ [r]) d p.length r where
  get := List.getElem?_concat_length p r
  matching := hm
  longest r' hr' hm' := by
    rcases List.mem_append.1 hr' with hr' | hr'
    · exact (hp r' hr' hm').le
    · rw [List.mem_singleton.1 hr']
  earliest j r' hj hget hm' := by
    rw [List.getElem?_append_left hj] at hget
    exact hp r' (List.getElem?_mem hget) hm'

/-- What the loop of `route_lookup` knows after the routes `p`: no route matched, or it holds
    the selected route of `p` and its prefix length. -/
def LoopInv (p : List (Route Dev)) (d : UInt32) : Option (Route Dev) × Nat → Prop
  | (none, _) => ∀ r ∈ p, r.matchesDest d = false
  | (some b, n) => n = b.prefixLen ∧ ∃ i, Selected p d i b

/-- One pass of the loop keeps its invariant. -/
theorem loopInv_lookupStep {p : List (Route Dev)} {d : UInt32} {acc : Option (Route Dev) × Nat}
    (r : Route Dev) (h : LoopInv p d acc) : LoopInv (p ++ [r]) d (lookupStep d acc r) := by
  by_cases hm : r.matchesDest d
  case neg =>
    rw [lookupStep, if_neg hm]
    obtain ⟨_ | b, n⟩ := acc
    · intro r' hr'
      rcases List.mem_append.1 hr' with hr' | hr'
      · exact h r' hr'
      · obtain rfl := List.mem_singleton.1 hr'
        simpa using hm
    · obtain ⟨rfl, i, hsel⟩ := h
      exact ⟨rfl, i, hsel.append fun h => absurd h hm⟩
  case pos =>
    obtain ⟨_ | b, n⟩ := acc
    · simp only [lookupStep, hm, Option.isNone_none, Bool.true_or, if_true]
      exact ⟨rfl, p.length, selected_last hm fun r' hr' hm' => by simp [h r' hr'] at hm'⟩
    · obtain ⟨rfl, i, hsel⟩ := h
      by_cases hlt : b.prefixLen < r.prefixLen
      · rw [lookupStep, if_pos hm, if_pos (by simpa using hlt)]
        exact ⟨rfl, p.length, selected_last hm fun r' hr' hm' =>
          lt_of_le_of_lt (hsel.longest r' hr' hm') hlt⟩
      · rw [lookupStep, if_pos hm, if_neg (by simpa using hlt)]
        exact ⟨rfl, i, hsel.append fun _ => Nat.le_of_not_lt hlt⟩

/-- The loop of `route_lookup` over a whole table. -/
theorem loopInv_foldl (t : List (Route Dev)) (d : UInt32) :
    LoopInv t d (t.foldl (lookupStep d) (none, 0)) := by
  induction t using List.reverseRecOn with
  | nil => intro r hr; exact absurd hr (List.not_mem_nil r)
  | append_singleton p r ih =>
    rw [List.foldl_append, List.foldl_cons, List.foldl_nil]
    exact loopInv_lookupStep r ih

/-- `route_lookup` over a table that a sequence of calls built answers `NoRoute` exactly when
    no route matches; otherwise it answers with the device of the selected route (the first
    of the longest prefix among the matching ones), and with its gateway as next hop when the
    gateway is not `0`, the destination itself when it is. -/
theorem routeLookup_longest_prefix (ops : List (RouteOp Dev)) (d : UInt32) :
    (routeLookup (routes ops) d = .error .noRoute ↔
      ∀ r ∈ routes ops, r.matchesDest d = false) ∧
    ∀ dev nh, routeLookup (routes ops) d = .ok (dev, nh) ↔
      ∃ i b, Selected (routes ops) d i b ∧ dev = b.dev ∧
        nh = if b.gateway ≠ 0 then b.gateway else d := by
  have hinv := loopInv_foldl (routes ops) d
  unfold routeLookup
  generalize (routes ops).foldl (lookupStep d) (none, 0) = acc at hinv ⊢
  obtain ⟨_ | b, n⟩ := acc
  case none =>
    refine ⟨iff_of_true rfl hinv, fun dev nh => iff_of_false (by simp) ?_⟩
    rintro ⟨i, b, hsel, -⟩
    simpa [hsel.matching] using hinv b (List.getElem?_mem hsel.get)
  case some =>
    obtain ⟨-, i, hsel⟩ := hinv
    constructor
    · refine iff_of_false (by simp) fun h => ?_
      simpa [hsel.matching] using h b (List.getElem?_mem hsel.get)
    · intro dev nh
      simp only [Except.ok.injEq, Prod.mk.injEq, Route.isGateway, bne_iff_ne, ne_eq]
      constructor
      · rintro ⟨rfl, rfl⟩
        exact ⟨i, b, hsel, rfl, rfl⟩
      · rintro ⟨i', b', hsel', rfl, rfl⟩
        obtain ⟨-, rfl⟩ := hsel.unique hsel'
        exact ⟨rfl, rfl⟩

/-- The lookups of the spec's scenario: `10.0.0.0/8` on device 0, `10.1.0.0/16` on device 1,
    and a default route through `10.0.0.1` on device 2. -/
example :
    [0x0A010203, 0x0A020203, 0x08080808].map (routeLookup (routes
      [.addInterfaceRoute 0x0A000000 0xFF000000 (0 : Fin 3),
        .addInterfaceRoute 0x0A010000 0xFFFF0000 1, .addDefaultRoute 0x0A000001 2])) =
      [.ok (1, 0x0A010203), .ok (0, 0x0A020203), .ok (2, 0x0A000001)] :=
  rfl

/-! ## Adding a route -/

/-- A route pushed at the end of the table takes over the lookups of exactly the destinations
    it matches with a prefix longer than every earlier matching route; every other lookup
    answers as before. -/
theorem routeLookup_append (t : List (Route Dev)) (r : Route Dev) (d : UInt32) :
    routeLookup (t ++ [r]) d =
      if r.matchesDest d = true ∧ ∀ r' ∈ t, r'.matchesDest d = true → r'.prefixLen < r.prefixLen
      then .ok (r.dev, if r.isGateway then r.gateway else d) else routeLookup t d := by
  have hinv := loopInv_foldl t d
  unfold routeLookup
  rw [List.foldl_append, List.foldl_cons, List.foldl_nil]
  generalize t.foldl (lookupStep d) (none, 0) = acc at hinv ⊢
  by_cases hm : r.matchesDest d
  case neg => simp only [lookupStep, hm, Bool.false_eq_true, false_and, if_false]
  obtain ⟨_ | b, n⟩ := acc
  · -- Nothing in `t` matches, so `r` is taken.
    have hall : ∀ r' ∈ t, r'.matchesDest d = true → r'.prefixLen < r.prefixLen :=
      fun r' hr' hm' => by simp [hinv r' hr'] at hm'
    rw [if_pos ⟨hm, hall⟩]
    simp only [lookupStep, hm, Option.isNone_none, Bool.true_or, if_true]
  · -- `b` is the longest match of `t`: `r` is taken when it is longer than `b`.
    obtain ⟨rfl, i, hsel⟩ := hinv
    by_cases hlt : b.prefixLen < r.prefixLen
    · have hall : ∀ r' ∈ t, r'.matchesDest d = true → r'.prefixLen < r.prefixLen :=
        fun r' hr' hm' => lt_of_le_of_lt (hsel.longest r' hr' hm') hlt
      rw [if_pos ⟨hm, hall⟩]
      simp only [lookupStep, hm, Option.isNone_some, gt_iff_lt, hlt, decide_True, Bool.or_true,
        if_true]
    · have hnot : ¬∀ r' ∈ t, r'.matchesDest d = true → r'.prefixLen < r.prefixLen :=
        fun hall => hlt (hall b (List.getElem?_mem hsel.get) hsel.matching)
      rw [if_neg fun h => hnot h.2]
      simp only [lookupStep, hm, Option.isNone_some, gt_iff_lt, hlt, decide_False, Bool.or_false,
        Bool.false_eq_true, if_false, if_true]

end HkKernel.Net
