import PointsTo.Analysis.Changes
import PointsTo.Main
import PointsTo.Proofs.Analysis.Callees
import PointsTo.Proofs.Analysis.Depths
import PointsTo.Proofs.Analysis.FlowOrder
import PointsTo.Proofs.Analysis.FlowShape
import PointsTo.Proofs.Analysis.Identity
import PointsTo.Proofs.Analysis.Insertion
import PointsTo.Proofs.Analysis.Interning
import PointsTo.Proofs.Analysis.Pending
import PointsTo.Proofs.Analysis.Queries
import PointsTo.Proofs.Analysis.Receivers
import PointsTo.Proofs.Analysis.Recursion
import PointsTo.Proofs.Analysis.Safety
import PointsTo.Proofs.Program.Fresh
import PointsTo.Proofs.Program.Patterns
import PointsTo.Proofs.Program.Requests
import PointsTo.Proofs.Program.Spacing
import PointsTo.Proofs.Queue
import PointsTo.Proofs.Taint.Validation
