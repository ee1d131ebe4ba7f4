import Ovlive.Impl.Client.VehicleStore
import Ovlive.Proof.Stream.Diff

/-!
# What the store makes of a tick

`VehicleStore.apply` of a tick's report applies `Mirror.change` to every
record (`hear_vehicles`, `hear_features`), whatever the store held. `shows`
is what a record and the value last sent for its vehicle have in common.
-/

namespace OV.Impl

open Client

/-- The record of a vehicle that enters. -/
def enterVehicle (t : LiveTrip) : Vehicle := toVehicle (toState t)

/-- What a move does to a record. -/
def moveVehicle (t : LiveTrip) : Vehicle → Vehicle := (Client.toMove (toMove t)).moveVehicle

def enterFeature [Platform] (t : LiveTrip) : Feature := vehicleFeature (enterVehicle t)

def moveFeature (t : LiveTrip) : Feature → Feature := (Client.toMove (toMove t)).moveFeature

/-- A record has the values last sent. -/
def shows (w : Vehicle) (v : Sent) : Prop := w.lat = v.lat ∧ w.lon = v.lon ∧ w.delay = v.delay ∧ w.atStop = v.atStop

/-- A feature has the position last sent. -/
def placed (f : Feature) (v : Sent) : Prop := f.lat = v.lat ∧ f.lon = v.lon

section

variable (t : LiveTrip)

theorem shows_enter : shows (enterVehicle t) (sentOf t) := ⟨rfl, rfl, rfl, rfl⟩
theorem shows_move (w : Vehicle) : shows (moveVehicle t w) (sentOf t) := ⟨rfl, rfl, rfl, rfl⟩
theorem placed_enter [Platform] : placed (enterFeature t) (sentOf t) := ⟨rfl, rfl⟩
theorem placed_move (f : Feature) : placed (moveFeature t f) (sentOf t) := ⟨rfl, rfl⟩

end

namespace Client.VehicleStore

variable [Platform] (s : VehicleStore) (sub : Subscription) (idx : VehicleIndex) (k : String)

/-- The store after a tick's report. -/
def hear : VehicleStore := (s.apply (Client.normalize (sub.report idx))).1

/-- What a snapshot leaves of a map: nothing. -/
def base {V : Type} (snapshot : Bool) (m : Map String V) : Map String V := if snapshot then ∅ else m

theorem hear_vehicles :
    (s.hear sub idx).vehicles.lookup k =
      (Mirror.change sentOf kept enterVehicle moveVehicle (sub.sent.lookup k) (sub.wants idx k)).apply
        ((base sub.forceSnapshot s.vehicles).lookup k) := by
  rw [← (sub.frame idx).lookup_apply fun k t h => (Subscription.wants_eq_some.mp h).2]
  simp only [hear, apply, Client.normalize, Subscription.report, Map.insertAll_map, Map.adjustAll_map]
  rfl

theorem hear_features :
    (s.hear sub idx).features.lookup k =
      (Mirror.change sentOf kept enterFeature moveFeature (sub.sent.lookup k) (sub.wants idx k)).apply
        ((base sub.forceSnapshot s.features).lookup k) := by
  rw [← (sub.frame idx).lookup_apply fun k t h => (Subscription.wants_eq_some.mp h).2]
  simp only [hear, apply, Client.normalize, Subscription.report, Map.insertAll_map, Map.adjustAll_map]
  rfl

/-- A report of nothing changes nothing, so a silent tick is one too. -/
theorem hear_silent (h : (sub.buildUpdate idx).2 = none) :
    (s.hear sub idx).vehicles = s.vehicles ∧ (s.hear sub idx).features = s.features := by
  rw [hear, Subscription.buildUpdate_silent h]
  exact ⟨rfl, rfl⟩

end Client.VehicleStore

end OV.Impl
