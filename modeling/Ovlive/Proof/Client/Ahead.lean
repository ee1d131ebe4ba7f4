import Ovlive.Proof.Client.Countdown
import Ovlive.Proof.Client.Split

/-!
# The split follows the vehicle

A vehicle at a call of its trip: of the stops at zero distance the first is the
nearest (`nearestStopIndex_at`), and by the clock the calls before it have
departed and it has not (`Sighting.departed_iff`). So the split is at the first
call with its coordinates, or behind that one (`Sighting.index_eq`), and follows
the vehicle over a ride exactly as long as it comes to no place again
(`follows_vehicle_iff`).
-/

namespace OV.Impl.Client

section

variable [JsMath] [Platform] {stops : List TripStop} {now : Int}

/-- Whether the vehicle has left a stop: it is not at one, and the stop's departure
and the delay are over. -/
def leftStop (stops : List TripStop) (now : Int) (veh : VehicleProgress) (i : Nat) : Bool :=
  !veh.atStop && stops[i]?.any fun s => departed s veh.delay now

/-- The first stop not departed, for a vehicle without a position. -/
def firstAhead (stops : List TripStop) (now : Int) (delay : Int) : Nat :=
  (stops.findIdx? fun s => !departed s delay now).getD 0

/-- The split of a trip that has stops. -/
theorem upcomingFromIndex_eq (h : stops ≠ []) (veh : VehicleProgress) :
    upcomingFromIndex stops veh now =
      match nearestStopIndex stops veh.lat veh.lon with
      | none => firstAhead stops now veh.delay
      | some near => if leftStop stops now veh near then near + 1 else near := by
  rw [upcomingFromIndex, if_neg (by simpa using h)]
  cases nearestStopIndex stops veh.lat veh.lon with
  | none => rfl
  | some near =>
    cases hstop : veh.atStop <;> cases hgone : stops[near]?.any fun s => departed s veh.delay now <;>
      simp [leftStop, hstop, hgone]

end

/-- What a distance from a position is taken to be: never negative, and zero to
that position only. -/
def MeasuredFrom [JsMath] (lat lon : Num) (stops : List TripStop) : Prop :=
  ∀ s ∈ stops, (distanceMeters lat lon s.lat s.lon).lt (.fin 0) = false ∧
    (distanceMeters lat lon s.lat s.lon = .fin 0 ↔ s.lat = lat ∧ s.lon = lon)

/-- The stops of a trip are measured from each of them. -/
def Measured [JsMath] (stops : List TripStop) : Prop :=
  ∀ s ∈ stops, s.lat.isFinite → s.lon.isFinite → MeasuredFrom s.lat s.lon stops

/-- A comparable number that is neither zero nor below it. -/
theorem pos_of_not_neg {d b : Num} (hb : d.lt b = true) (hneg : d.lt (.fin 0) = false) (h0 : d ≠ .fin 0) :
    (Num.fin 0).lt d = true := by
  cases d with
  | nan => cases b <;> cases hb
  | negInf => cases hneg
  | posInf => rfl
  | fin q =>
    rw [Num.lt_fin, decide_eq_false_iff_not, not_lt] at hneg
    exact decide_eq_true (lt_of_le_of_ne hneg fun h => h0 (by rw [h]))

section

variable [JsMath] {lat lon : Num}

/-- Whether a stop is where the vehicle is. -/
def atPoint (lat lon : Num) (s : TripStop) : Bool := s.lat = lat && s.lon = lon

omit [JsMath] in
theorem atPoint_iff {s : TripStop} : atPoint lat lon s = true ↔ s.lat = lat ∧ s.lon = lon := by
  rw [atPoint, Bool.and_eq_true, decide_eq_true_eq, decide_eq_true_eq]

/-- One step of the search for the nearest stop. -/
def nearStep (lat lon : Num) (best : Option Nat × Num) (si : TripStop × Nat) : Option Nat × Num :=
  let d := distanceMeters lat lon si.1.lat si.1.lon
  if d.lt best.2 then (some si.2, d) else best

/-- Nothing is nearer than zero. -/
theorem foldl_nearStep_zero {stops : List TripStop} (hm : MeasuredFrom lat lon stops) (k : Nat) (best : Option Nat) :
    (stops.zipIdx k).foldl (nearStep lat lon) (best, .fin 0) = (best, .fin 0) := by
  induction stops generalizing k with
  | nil => rfl
  | cons s stops ih =>
    rw [List.zipIdx_cons, List.foldl_cons, nearStep, (hm s List.mem_cons_self).1]
    exact ih (fun s' hs' => hm s' (List.mem_cons_of_mem _ hs')) (k + 1)

/-- A search that has found no stop at the position yet finds the first one that is. -/
theorem foldl_nearStep {stops : List TripStop} (hm : MeasuredFrom lat lon stops) {j : Nat}
    (hj : stops.findIdx? (atPoint lat lon) = some j) (k : Nat) {best : Option Nat × Num}
    (hbest : (Num.fin 0).lt best.2 = true) : ((stops.zipIdx k).foldl (nearStep lat lon) best).1 = some (k + j) := by
  induction stops generalizing j k best with
  | nil => cases hj
  | cons s stops ih =>
    obtain ⟨hneg, hzero⟩ := hm s List.mem_cons_self
    have hrest : MeasuredFrom lat lon stops := fun s' hs' => hm s' (List.mem_cons_of_mem _ hs')
    rw [List.zipIdx_cons, List.foldl_cons]
    rw [List.findIdx?_cons] at hj
    cases hs : atPoint lat lon s with
    | true =>
      rw [hs, if_pos rfl] at hj
      cases hj
      rw [nearStep, hzero.mpr (atPoint_iff.mp hs), hbest, if_pos rfl, foldl_nearStep_zero hrest, Nat.add_zero]
    | false =>
      rw [hs, if_neg (by decide), Option.map_eq_some_iff] at hj
      obtain ⟨j', hj', rfl⟩ := hj
      have hd : distanceMeters lat lon s.lat s.lon ≠ .fin 0 := fun h => by
        rw [atPoint_iff.mpr (hzero.mp h)] at hs
        cases hs
      rw [ih hrest hj' (k + 1), Nat.add_right_comm]
      · rfl
      · -- what replaces the best is a positive distance
        simp only [nearStep]
        split
        · rename_i hlt
          exact pos_of_not_neg hlt hneg hd
        · exact hbest

/-- The nearest stop of a vehicle that is at one: the first with its coordinates. -/
theorem nearestStopIndex_at {stops : List TripStop} (hm : MeasuredFrom lat lon stops) (hlat : lat.isFinite)
    (hlon : lon.isFinite) {j : Nat} (hj : stops.findIdx? (atPoint lat lon) = some j) :
    nearestStopIndex stops (some lat) (some lon) = some j := by
  have hbest : (Num.fin 0).lt ((none : Option Nat), Num.posInf).2 = true := rfl
  have hfold := foldl_nearStep hm hj 0 hbest
  rw [Nat.zero_add] at hfold
  simp only [nearestStopIndex, hlat, hlon, Bool.and_self, if_true]
  exact hfold

end

/-! ## A ride along a plan -/

/-- A call of a plan, with the scheduled arrival that the split does not read. -/
structure ScheduledCall where
  arrival : Int
  stop : TripStop
  deriving DecidableEq

def ScheduledCall.times (c : ScheduledCall) : List Int := [c.arrival, c.stop.scheduledDeparture]

/-- A plan whose schedule never goes back and takes less than half a day. -/
structure TimedPlan where
  calls : List ScheduledCall
  sorted : (calls.flatMap ScheduledCall.times).Pairwise (· ≤ ·)
  span : ∀ a ∈ calls.flatMap ScheduledCall.times, ∀ b ∈ calls.flatMap ScheduledCall.times, b - a < 43200

namespace TimedPlan

variable (plan : TimedPlan) {i j : Nat} {c c' : ScheduledCall}

def stops : List TripStop := plan.calls.map ScheduledCall.stop

variable {plan}

theorem departure_le_arrival (hc : plan.calls[i]? = some c) (hc' : plan.calls[j]? = some c') (hij : i < j) :
    c.stop.scheduledDeparture ≤ c'.arrival := by
  have hpairs := (List.pairwise_flatMap.mp plan.sorted).2
  obtain ⟨hi, rfl⟩ := List.getElem?_eq_some_iff.mp hc
  obtain ⟨hj, rfl⟩ := List.getElem?_eq_some_iff.mp hc'
  exact List.pairwise_iff_getElem.mp hpairs i j hi hj hij _ (by simp [ScheduledCall.times]) _
    (by simp [ScheduledCall.times])

theorem mem_times (hc : plan.calls[i]? = some c) : ∀ x ∈ c.times, x ∈ plan.calls.flatMap ScheduledCall.times :=
  fun _ hx => List.mem_flatMap.mpr ⟨c, List.mem_of_getElem? hc, hx⟩

theorem stops_getElem? (hc : plan.calls[i]? = some c) : plan.stops[i]? = some c.stop := by
  rw [stops, List.getElem?_map, hc, Option.map_some]

end TimedPlan

section

variable [Platform]

/-- A vehicle seen at the coordinates of a call of its plan, at a time of the
schedule between that call's arrival and departure: the clock is ahead of that
time by the delay, and wraps at midnight. -/
structure Sighting (plan : TimedPlan) where
  call : Nat
  time : Int
  nowMs : Int
  veh : VehicleProgress
  here : ScheduledCall
  here_call : plan.calls[call]? = some here
  lat : veh.lat = some here.stop.lat
  lon : veh.lon = some here.stop.lon
  arrived : here.arrival ≤ time
  staying : time < here.stop.scheduledDeparture
  clock : ∃ day : Int, time + veh.delay = secsSinceMidnightNL nowMs + 86400 * day

namespace Sighting

variable {plan : TimedPlan} (s : Sighting plan) {j : Nat} {c : ScheduledCall}

variable {s}

/-- Of the calls up to its own, those before it have departed. -/
theorem departed_iff (hc : plan.calls[j]? = some c) (hj : j ≤ s.call) :
    departed c.stop s.veh.delay s.nowMs = true ↔ j < s.call := by
  obtain ⟨day, hclock⟩ := s.clock
  have harrived := s.arrived
  have hstaying := s.staying
  have hlast := plan.span c.stop.scheduledDeparture (plan.mem_times hc _ (by simp [ScheduledCall.times]))
    s.here.stop.scheduledDeparture (plan.mem_times s.here_call _ (by simp [ScheduledCall.times]))
  have hfirst := plan.span s.here.arrival (plan.mem_times s.here_call _ (by simp [ScheduledCall.times]))
    c.stop.scheduledDeparture (plan.mem_times hc _ (by simp [ScheduledCall.times]))
  rw [departed_of_distance (d := c.stop.scheduledDeparture - s.time) (-day) (by omega) (by omega) (by omega)]
  rcases Nat.lt_or_eq_of_le hj with hlt | rfl
  · have hbefore := plan.departure_le_arrival hc s.here_call hlt
    exact iff_of_true (by omega) hlt
  · have hsame : s.here = c := Option.some.inj (s.here_call.symm.trans hc)
    rw [hsame] at hstaying
    exact iff_of_false (by omega) (lt_irrefl _)

variable [JsMath]

/-- Where the split is. -/
def index (s : Sighting plan) : Nat := upcomingFromIndex plan.stops s.veh s.nowMs

/-- Whether the call has coordinates that a vehicle can be at. -/
def usable (s : Sighting plan) : Bool := s.here.stop.lat.isFinite && s.here.stop.lon.isFinite

/-- The vehicle has not been at these coordinates before, but perhaps at the call
before this one, and then it does not report standing at a stop. -/
def FirstHere (s : Sighting plan) : Prop :=
  s.usable → ∀ j c, j < s.call → plan.calls[j]? = some c → c.stop.lat = s.here.stop.lat → c.stop.lon = s.here.stop.lon →
    j + 1 = s.call ∧ s.veh.atStop = false

omit [JsMath] in
theorem stops_ne_nil (s : Sighting plan) : plan.stops ≠ [] := by
  intro h
  have hcall := plan.stops_getElem? s.here_call
  rw [h] at hcall
  cases hcall

omit [JsMath] in
/-- The calls up to its own, by position. -/
theorem exists_call (s : Sighting plan) (hj : j ≤ s.call) : ∃ c, plan.calls[j]? = some c := by
  obtain ⟨hlen, -⟩ := List.getElem?_eq_some_iff.mp s.here_call
  exact ⟨_, List.getElem?_eq_getElem (lt_of_le_of_lt hj hlen)⟩

/-- Without coordinates to go by, the split is at the first call not departed. -/
theorem index_of_not_usable (h : s.usable = false) : s.index = s.call := by
  have hnear : nearestStopIndex plan.stops s.veh.lat s.veh.lon = none := by
    rw [s.lat, s.lon]
    exact if_neg (by rw [usable] at h; simp [h])
  have hfirst : plan.stops.findIdx? (fun st => !departed st s.veh.delay s.nowMs) = some s.call := by
    obtain ⟨hlen, hcall⟩ := List.getElem?_eq_some_iff.mp (plan.stops_getElem? s.here_call)
    refine List.findIdx?_eq_some_iff_getElem.mpr ⟨hlen, ?_, fun j hj => ?_⟩
    · have hstays := (departed_iff s.here_call (le_refl _)).not.mpr (lt_irrefl _)
      rw [hcall, Bool.not_eq_true', Bool.eq_false_iff]
      exact hstays
    · obtain ⟨c, hc⟩ := s.exists_call (le_of_lt hj)
      obtain ⟨_, hstop⟩ := List.getElem?_eq_some_iff.mp (plan.stops_getElem? hc)
      rw [hstop, (departed_iff hc (le_of_lt hj)).mpr hj]
      decide
  rw [index, upcomingFromIndex_eq s.stops_ne_nil, hnear]
  simp only [firstAhead, hfirst, Option.getD_some]

/-- The split is at the first call with the coordinates, or behind that one if
the vehicle has gone on and does not report standing at a stop. -/
theorem index_of_usable (hm : Measured plan.stops) (h : s.usable)
    (hj : plan.stops.findIdx? (atPoint s.here.stop.lat s.here.stop.lon) = some j) (hle : j ≤ s.call) :
    s.index = if s.veh.atStop = false ∧ j < s.call then j + 1 else j := by
  obtain ⟨hlat, hlon⟩ := Bool.and_eq_true_iff.mp h
  obtain ⟨c, hc⟩ := s.exists_call hle
  have hfrom := hm s.here.stop (List.mem_of_getElem? (plan.stops_getElem? s.here_call)) hlat hlon
  rw [index, upcomingFromIndex_eq s.stops_ne_nil, s.lat, s.lon, nearestStopIndex_at hfrom hlat hlon hj]
  have hleft : leftStop plan.stops s.nowMs s.veh j = true ↔ s.veh.atStop = false ∧ j < s.call := by
    rw [leftStop, plan.stops_getElem? hc, Option.any_some, Bool.and_eq_true, Bool.not_eq_true', departed_iff hc hle]
  simp only [hleft]

/-- The split is at the call of the vehicle exactly if it is there for the first time. -/
theorem index_eq_iff (hm : Measured plan.stops) (s : Sighting plan) : s.index = s.call ↔ s.FirstHere := by
  cases h : s.usable with
  | false => exact iff_of_true (index_of_not_usable h) fun h' => by rw [h] at h'; cases h'
  | true =>
    have hhere : atPoint s.here.stop.lat s.here.stop.lon s.here.stop = true := atPoint_iff.mpr ⟨rfl, rfl⟩
    obtain ⟨hlen, hcall⟩ := List.getElem?_eq_some_iff.mp (plan.stops_getElem? s.here_call)
    obtain ⟨j, hj⟩ : ∃ j, plan.stops.findIdx? (atPoint s.here.stop.lat s.here.stop.lon) = some j := by
      refine Option.isSome_iff_exists.mp (List.findIdx?_isSome.trans (List.any_eq_true.mpr ⟨s.here.stop, ?_, hhere⟩))
      exact List.mem_of_getElem? (plan.stops_getElem? s.here_call)
    obtain ⟨hjlen, hjat, hjfirst⟩ := List.findIdx?_eq_some_iff_getElem.mp hj
    have hle : j ≤ s.call := by
      by_contra hlt
      exact hjfirst s.call (by omega) (by rw [hcall]; exact hhere)
    have hindex := index_of_usable hm h hj hle
    constructor
    · intro heq _ j' c' hlt hc' hlat hlon
      have hfirst : j ≤ j' := by
        by_contra hbefore
        obtain ⟨_, hstop⟩ := List.getElem?_eq_some_iff.mp (plan.stops_getElem? hc')
        exact hjfirst j' (by omega) (by rw [hstop]; exact atPoint_iff.mpr ⟨hlat, hlon⟩)
      rw [hindex] at heq
      split at heq
      · rename_i hleft
        exact ⟨by omega, hleft.1⟩
      · omega
    · intro hfirst
      rcases Nat.lt_or_eq_of_le hle with hlt | rfl
      · obtain ⟨c, hc⟩ := s.exists_call hle
        obtain ⟨_, hstop⟩ := List.getElem?_eq_some_iff.mp (plan.stops_getElem? hc)
        rw [hstop] at hjat
        obtain ⟨hlat, hlon⟩ := atPoint_iff.mp hjat
        obtain ⟨hnext, hgone⟩ := hfirst h j c hlt hc hlat hlon
        rw [hindex, if_pos ⟨hgone, hlt⟩, hnext]
      · rw [hindex, if_neg fun hleft => lt_irrefl _ hleft.2]

omit [JsMath] in
/-- Later in the schedule the vehicle is no earlier in its trip. -/
theorem call_le_of_time_le {a b : Sighting plan} (h : a.time ≤ b.time) : a.call ≤ b.call := by
  by_contra hlt
  have hbefore := plan.departure_le_arrival b.here_call a.here_call (by omega)
  have hstaying := b.staying
  have harrived := a.arrived
  omega

/-- Over a ride, a vehicle at one call after the other as the clock advances, the
split is at its call all along, and never goes back, exactly if it comes to no
call where it has been before, but from there directly and moving. -/
theorem follows_vehicle_iff (plan : TimedPlan) (hm : Measured plan.stops) (ride : List (Sighting plan))
    (hride : ride.Pairwise fun a b => a.time ≤ b.time) :
    ((∀ s ∈ ride, s.index = s.call) ∧ ride.Pairwise fun a b => a.index ≤ b.index) ↔ ∀ s ∈ ride, s.FirstHere := by
  have hall : (∀ s ∈ ride, s.index = s.call) ↔ ∀ s ∈ ride, s.FirstHere :=
    forall₂_congr fun s _ => index_eq_iff hm s
  rw [← hall]
  refine ⟨And.left, fun h => ⟨h, hride.imp_of_mem fun {a b} ha hb hab => ?_⟩⟩
  rw [h a ha, h b hb]
  exact call_le_of_time_le hab

end Sighting

end

namespace Sighting

/-- A loop line: the third call is where the first one was. -/
def loop : TimedPlan where
  calls :=
    [{ arrival := 0, stop := { lat := .fin 52, lon := .fin 5, scheduledDeparture := 60 } },
      { arrival := 600, stop := { lat := .fin 53, lon := .fin 5, scheduledDeparture := 660 } },
      { arrival := 1200, stop := { lat := .fin 52, lon := .fin 5, scheduledDeparture := 1260 } }]
  sorted := by decide
  span := by decide

/-- A bus on time, standing at a call of the loop. -/
def inLoop (i : Fin 3) : @Sighting plainPlatform loop :=
  let := plainPlatform
  let c := loop.calls.get i
  { call := i
    time := c.arrival
    nowMs := c.arrival * 1000
    veh := { lat := some c.stop.lat, lon := some c.stop.lon, atStop := true, delay := 0 }
    here := c
    here_call := List.getElem?_eq_getElem i.2
    lat := rfl
    lon := rfl
    arrived := le_refl _
    staying := by revert i; decide
    clock := ⟨0, by revert i; decide +kernel⟩ }

theorem measured_loop : @Measured HomeApp.meridian loop.stops := by
  unfold Measured MeasuredFrom
  decide +kernel

/-- The first two calls of the loop. -/
theorem follows_vehicle_out :
    let _ := HomeApp.meridian
    let _ := plainPlatform
    (∀ s ∈ [inLoop 0, inLoop 1], s.index = s.call) ∧ [inLoop 0, inLoop 1].Pairwise fun a b => a.index ≤ b.index := by
  intro _ _
  refine (follows_vehicle_iff loop measured_loop [inLoop 0, inLoop 1] (by decide +kernel)).mpr ?_
  intro s hs _ j c hj hc hlat _
  rcases List.mem_pair.mp hs with rfl | rfl
  · cases hj
  · obtain rfl : j = 0 := Nat.lt_one_iff.mp hj
    cases hc
    exact absurd hlat (by decide)

/-- Back where it started, the bus has its whole trip ahead. -/
theorem not_follows_vehicle :
    let _ := HomeApp.meridian
    let _ := plainPlatform
    ¬ ∀ (plan : TimedPlan), Measured plan.stops → ∀ ride : List (Sighting plan),
      ride.Pairwise (fun a b => a.time ≤ b.time) →
        (∀ s ∈ ride, s.index = s.call) ∧ ride.Pairwise fun a b => a.index ≤ b.index := by
  intro _ _ h
  have hback := (h loop measured_loop [inLoop 2] (List.pairwise_singleton _ _)).1 (inLoop 2) (List.mem_singleton_self _)
  exact absurd hback (by decide +kernel)

end Sighting

end OV.Impl.Client
