import Ovlive.Framework.Num

/-!
# Rijksdriehoek to WGS84 (`crates/core/src/rd.rs`)

The polynomial of the conversion, read exactly.
-/

namespace OV.Impl.Rd

/-- The terms `(p, q, coefficient)` of the latitude. -/
def K : List (Nat × Nat × ℚ) :=
  [(0, 1, 3235.65389), (2, 0, -32.58297), (0, 2, -0.24750), (2, 1, -0.84978), (0, 3, -0.06550),
    (2, 2, -0.01709), (1, 0, -0.00738), (4, 0, 0.00530), (2, 3, -0.00039), (4, 1, 0.00033),
    (1, 1, -0.00012)]

/-- The terms of the longitude. -/
def L : List (Nat × Nat × ℚ) :=
  [(1, 0, 5260.52916), (1, 1, 105.94684), (1, 2, 2.45656), (3, 0, -0.81885), (1, 3, 0.05594),
    (3, 1, -0.05607), (0, 1, 0.01199), (3, 2, -0.00256), (1, 4, 0.00128), (0, 2, 0.00022),
    (2, 0, -0.00022), (5, 0, 0.00026)]

/-- The value of a polynomial in two variables. -/
def poly (terms : List (Nat × Nat × ℚ)) (dx dy : Num) : Num :=
  terms.foldl (fun s (p, q, c) => s.add (((Num.fin c).mul (dx.powi p)).mul (dy.powi q))) (.fin 0)

/-- `rd_to_wgs84`. -/
def rdToWgs84 (x y : Num) : Num × Num :=
  let dx := (x.sub (.fin 155000)).mul (.fin (1 / 100000))
  let dy := (y.sub (.fin 463000)).mul (.fin (1 / 100000))
  ((Num.fin 52.15517440).add ((poly K dx dy).mul (.fin (1 / 3600))),
    (Num.fin 5.38720621).add ((poly L dx dy).mul (.fin (1 / 3600))))

example : rdToWgs84 (.fin 155000) (.fin 463000) = (.fin 52.15517440, .fin 5.38720621) := by decide +kernel

end OV.Impl.Rd
