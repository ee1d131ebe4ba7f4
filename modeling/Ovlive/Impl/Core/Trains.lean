import Ovlive.Framework.Assoc
import Ovlive.Impl.Core.Model

/-!
# Train punctuality (`crates/core/src/trains.rs`)
-/

namespace OV.Impl

/-- The delay forecast at one point of a journey. -/
structure DelayPoint where
  at_ : Instant
  delaySeconds : Int

/-- One revision of a train's journey. -/
structure TrainUpdate where
  number : String
  operatingDay : Option String
  lineCode : Option String
  points : List DelayPoint

/-- A train's stored delay curve. -/
structure TrainDelay where
  points : List DelayPoint
  operatingDay : Option String
  lineCode : Option String
  updatedAt : Instant

/-- `TrainDelay::at`: the forecast of the next point, or of the last one. -/
def TrainDelay.at (c : TrainDelay) (now : Instant) : Option Int :=
  ((c.points.find? fun p => now ≤ p.at_).or c.points.getLast?).map DelayPoint.delaySeconds

/-- The delay curves, by train number. -/
structure TrainDelays where
  byNumber : Map String TrainDelay := ∅

/-- The curves as they are written to disk. -/
structure TrainDelaySnapshot where
  entries : Map String TrainDelay

namespace TrainDelays

/-- `TrainDelays::apply`: a revision replaces the curve of its train. -/
def apply (s : TrainDelays) (u : TrainUpdate) (now : Instant) : TrainDelays where
  byNumber := s.byNumber.insert u.number
    { points := u.points.mergeSort fun p q => p.at_ ≤ q.at_
      operatingDay := u.operatingDay
      lineCode := u.lineCode
      updatedAt := now }

def get (s : TrainDelays) (number : String) : Option TrainDelay := s.byNumber.lookup number

/-- `TrainDelays::prune`: drop the curves not revised since `cutoff`. -/
def prune (s : TrainDelays) (cutoff : Instant) : TrainDelays where
  byNumber := s.byNumber.retain fun _ d => cutoff ≤ d.updatedAt

def snapshot (s : TrainDelays) : TrainDelaySnapshot where
  entries := s.byNumber

/-- `TrainDelays::restore`: insert the curves of a snapshot. -/
def restore (s : TrainDelays) (snap : TrainDelaySnapshot) : TrainDelays where
  byNumber := Map.insertAll Sigma.fst Sigma.snd snap.entries.entries s.byNumber

end TrainDelays

end OV.Impl
