import GridSpline.Curvature.Capture
import GridSpline.Curvature.Downsample
import GridSpline.Curvature.Filter
import GridSpline.Equations.WeakDefault
import GridSpline.Failure.Message
import GridSpline.Fit.Run
import GridSpline.Grid.Monotone
import GridSpline.Interpolation.Matrix
import GridSpline.Lattice.Ladder
import GridSpline.Lattice.Lines
import GridSpline.Proofs.Channel.Climb
import GridSpline.Proofs.Channel.Given
import GridSpline.Proofs.Channel.Level
import GridSpline.Proofs.Channel.Run
import GridSpline.Proofs.Channel.View
import GridSpline.Proofs.Curvature.Balance
import GridSpline.Proofs.Curvature.Capture
import GridSpline.Proofs.Curvature.Downsample
import GridSpline.Proofs.Curvature.Filter
import GridSpline.Proofs.Curvature.Kernel
import GridSpline.Proofs.Curvature.Passes
import GridSpline.Proofs.Curvature.Quadratic
import GridSpline.Proofs.Curvature.Separable
import GridSpline.Proofs.Curvature.Straight
import GridSpline.Proofs.Dense.Broadcast
import GridSpline.Proofs.Dense.Components
import GridSpline.Proofs.Dense.Reshape
import GridSpline.Proofs.Equations.Affine
import GridSpline.Proofs.Equations.Assembly
import GridSpline.Proofs.Equations.LeastSquares
import GridSpline.Proofs.Equations.Stiffness
import GridSpline.Proofs.Equations.WeakDefault
import GridSpline.Proofs.Exact
import GridSpline.Proofs.Fit.Accepted
import GridSpline.Proofs.Fit.Alike
import GridSpline.Proofs.Fit.Climb
import GridSpline.Proofs.Fit.Constant
import GridSpline.Proofs.Fit.Energy
import GridSpline.Proofs.Fit.ExtraFit
import GridSpline.Proofs.Fit.Flat
import GridSpline.Proofs.Fit.FlatRun
import GridSpline.Proofs.Fit.Frame
import GridSpline.Proofs.Fit.Level
import GridSpline.Proofs.Fit.Made
import GridSpline.Proofs.Fit.Misfit
import GridSpline.Proofs.Fit.NullSpace
import GridSpline.Proofs.Fit.Pivot
import GridSpline.Proofs.Fit.Ready
import GridSpline.Proofs.Fit.Run
import GridSpline.Proofs.Fit.Running
import GridSpline.Proofs.Fit.Safety
import GridSpline.Proofs.Fit.Solved
import GridSpline.Proofs.Fit.Spacing
import GridSpline.Proofs.Fit.Start
import GridSpline.Proofs.Fit.Trend
import GridSpline.Proofs.Fit.Unread
import GridSpline.Proofs.Grid.Monotone
import GridSpline.Proofs.Grid.Width
import GridSpline.Proofs.History.Calls
import GridSpline.Proofs.History.Deviation
import GridSpline.Proofs.History.Run
import GridSpline.Proofs.History.Settings
import GridSpline.Proofs.Incomplete.Bounds
import GridSpline.Proofs.Incomplete.Domain
import GridSpline.Proofs.Incomplete.Numbers
import GridSpline.Proofs.Incomplete.Reading
import GridSpline.Proofs.Incomplete.Rows
import GridSpline.Proofs.Incomplete.Run
import GridSpline.Proofs.Interpolation.Agreement
import GridSpline.Proofs.Interpolation.Cell
import GridSpline.Proofs.Interpolation.Corner
import GridSpline.Proofs.Interpolation.Hat
import GridSpline.Proofs.Interpolation.Interpolant
import GridSpline.Proofs.Interpolation.Matrix
import GridSpline.Proofs.Interpolation.MultiAffine
import GridSpline.Proofs.Interpolation.Resample
import GridSpline.Proofs.Lattice.EdgeLengths
import GridSpline.Proofs.Lattice.Ladder
import GridSpline.Proofs.Lattice.Layout
import GridSpline.Proofs.Lattice.Line
import GridSpline.Proofs.Lattice.Lines
import GridSpline.Proofs.Lattice.Offset
import GridSpline.Proofs.Lattice.RedBlack
import GridSpline.Proofs.Motion.Climb
import GridSpline.Proofs.Motion.Curvature
import GridSpline.Proofs.Motion.Equations
import GridSpline.Proofs.Motion.Filter
import GridSpline.Proofs.Motion.Given
import GridSpline.Proofs.Motion.Input
import GridSpline.Proofs.Motion.Lattice
import GridSpline.Proofs.Motion.Level
import GridSpline.Proofs.Motion.Made
import GridSpline.Proofs.Motion.Moves
import GridSpline.Proofs.Motion.Reordered
import GridSpline.Proofs.Motion.Space
import GridSpline.Proofs.Motion.Stretched
import GridSpline.Proofs.Order.Assembly
import GridSpline.Proofs.Order.Cells
import GridSpline.Proofs.Order.Climb
import GridSpline.Proofs.Order.Given
import GridSpline.Proofs.Order.Level
import GridSpline.Proofs.Order.Rows
import GridSpline.Proofs.Order.Run
import GridSpline.Proofs.Real
import GridSpline.Proofs.Result
import GridSpline.Proofs.Sample.Checks
import GridSpline.Proofs.Sample.Decided
import GridSpline.Proofs.Sample.Domain
import GridSpline.Proofs.Sample.Prepared
import GridSpline.Proofs.Sample.Table
import GridSpline.Proofs.Sample.Written
import GridSpline.Proofs.Settings.Checked
import GridSpline.Proofs.Smoothing.Bracket
import GridSpline.Proofs.Smoothing.Interpolation
import GridSpline.Proofs.Smoothing.Optimum
import GridSpline.Proofs.Solver.Conjugacy
import GridSpline.Proofs.Solver.ConjugateGradient
import GridSpline.Proofs.Solver.Course
import GridSpline.Proofs.Solver.LineSweep
import GridSpline.Proofs.Solver.Local
import GridSpline.Proofs.Solver.Lowering
import GridSpline.Proofs.Solver.NodeOrder
import GridSpline.Proofs.Solver.Potential
import GridSpline.Proofs.Solver.Relaxation
import GridSpline.Proofs.Solver.Rest
import GridSpline.Proofs.Solver.Solve
import GridSpline.Proofs.Solver.Sweep
import GridSpline.Proofs.Solver.Vector
import GridSpline.Proofs.Sparse.Additions
import GridSpline.Proofs.Sparse.Columns
import GridSpline.Proofs.Sparse.Matrix
import GridSpline.Proofs.Sparse.Packed
import GridSpline.Proofs.Sparse.Stencil
import GridSpline.Sample.Prepared
import GridSpline.Scalar.Float
import GridSpline.Smoothing.Optimum
