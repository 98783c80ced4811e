import GridSpline.Scalar.Basic

/-!
# Tables of smoothing factors

How stiff a fit has to be for the least error, located by experiment on data with added noise. The
optimum depends on the number of axes, on the number of samples and on how far the samples deviate
from the truth on average; it shows no dependence on the resolution of the grid.

A table gives the decimal logarithm of the factor. Its rows belong to numbers of samples per axis
(the root of the number of samples, one root per axis), its columns to average deviations, as a
fraction of the range of the values. Both axes ascend.
-/

namespace GridSpline

/-- Decimal logarithms of smoothing factors. -/
structure SmoothingTable (α : Type) where
  /-- The number of samples per axis of each row. -/
  counts : List α
  /-- The average deviation of each column. -/
  deviations : List α
  /-- The logarithms, a row for every count. -/
  logs : List (List α)

namespace SmoothingTable

variable {α : Type} [Scalar α]

/-- The optimum for one axis. -/
def oneAxis : SmoothingTable α where
  counts := [5.0, 10.0, 20.0, 50.0, 100.0, 200.0]
  deviations := [0.0001, 0.0025, 0.005, 0.0125, 0.025, 0.05]
  logs :=
    [[-5.0, -5.3, -5.2, -4.4, -3.5, -0.8],
     [-6.4, -5.6, -5.1, -4.5, -4.0, -3.6],
     [-6.4, -5.9, -5.5, -4.6, -3.9, -3.3],
     [-6.8, -6.0, -5.6, -4.9, -4.4, -3.7],
     [-6.9, -6.2, -5.6, -4.9, -4.3, -3.5],
     [-6.9, -5.9, -5.5, -5.1, -4.7, -4.4]]

/-- The optimum for two axes. -/
def twoAxes : SmoothingTable α where
  counts := [5.0, 10.0, 20.0, 50.0, 100.0, 200.0]
  deviations := [0.0001, 0.0025, 0.005, 0.0125, 0.025, 0.05]
  logs :=
    [[-5.0, -5.0, -5.0, -4.8, -4.2, -3.2],
     [-5.1, -4.9, -4.6, -3.9, -3.3, -2.6],
     [-5.9, -5.0, -4.6, -4.1, -3.6, -3.1],
     [-6.7, -5.1, -4.7, -4.2, -3.7, -3.1],
     [-6.8, -5.0, -4.6, -4.0, -3.6, -3.0],
     [-6.8, -4.9, -4.4, -3.9, -3.5, -3.1]]

/-- The optimum for three axes. -/
def threeAxes : SmoothingTable α where
  counts := [2.92, 3.68, 4.22, 5.0, 6.3, 7.94, 10.0, 12.6, 20.0, 50.0]
  deviations := [0.0001, 0.0025, 0.005, 0.0125, 0.025, 0.05]
  logs :=
    [[-5.2, -5.0, -5.0, -4.9, -3.6, -2.2],
     [-5.5, -5.6, -5.6, -5.2, -4.4, -2.4],
     [-4.7, -4.8, -5.7, -5.9, -5.9, -2.3],
     [-4.1, -4.1, -5.0, -3.8, -3.4, -2.6],
     [-4.8, -4.6, -4.6, -4.1, -3.8, -3.4],
     [-4.7, -4.7, -4.7, -3.8, -3.3, -2.9],
     [-4.7, -4.8, -4.6, -3.9, -3.4, -3.0],
     [-5.2, -4.7, -4.4, -4.0, -3.4, -2.9],
     [-5.5, -5.0, -4.3, -3.6, -3.1, -2.8],
     [-5.1, -4.7, -4.3, -3.8, -3.3, -2.8]]

/-- The optimum for four axes. -/
def fourAxes : SmoothingTable α where
  counts := [2.66, 3.16, 3.76, 4.61, 5.0, 5.48, 6.51, 7.75, 10.0, 20.0, 31.62]
  deviations := [0.0001, 0.0025, 0.005, 0.0075, 0.0125, 0.025, 0.05]
  logs :=
    [[-5.5, -5.6, -4.9, -4.8, -4.5, -2.8, -3.1],
     [-4.3, -4.2, -4.0, -3.6, -3.2, -2.8, -2.6],
     [-4.3, -4.2, -4.0, -3.8, -3.2, -2.8, -1.5],
     [-4.5, -3.9, -3.5, -3.2, -3.0, -2.4, -1.9],
     [-4.5, -4.3, -3.7, -3.3, -3.0, -2.3, -1.9],
     [-4.7, -4.5, -4.3, -3.9, -3.2, -2.0, -0.9],
     [-4.3, -4.3, -4.1, -3.9, -3.1, -2.3, -1.6],
     [-4.5, -4.4, -3.8, -3.5, -3.1, -2.4, -1.6],
     [-4.9, -4.3, -3.6, -3.2, -2.8, -2.2, -1.6],
     [-4.8, -3.5, -3.0, -2.8, -2.5, -2.2, -1.9],
     [-5.1, -3.7, -3.0, -2.7, -2.3, -1.9, -1.5]]

/-- The table for a number of axes; four axes stand for all larger numbers. -/
def forAxes (axes : Nat) : SmoothingTable α :=
  match axes with
  | 0 | 1 => oneAxis
  | 2 => twoAxes
  | 3 => threeAxes
  | _ => fourAxes

/-- The logarithm in a row and column. -/
def log (t : SmoothingTable α) (row column : Nat) : α := (t.logs.getD row []).getD column 0

end SmoothingTable

end GridSpline
