import Contour.Double.Kernel
import Contour.Drawing
import Contour.Extrusion
import Contour.Patch.Mesh
import Contour.Proofs.AlongArc
import Contour.Proofs.BoxAlgebra
import Contour.Proofs.Builders
import Contour.Proofs.Drawings
import Contour.Proofs.Extrudable
import Contour.Proofs.Faultless
import Contour.Proofs.Guards
import Contour.Proofs.LinePairs
import Contour.Proofs.OwnSamples
import Contour.Proofs.Passes
import Contour.Proofs.Pieces
import Contour.Proofs.Refinement
import Contour.Proofs.Results
import Contour.Proofs.SplitReports
import Contour.Proofs.Tables
import Contour.Proofs.Division
import Contour.Proofs.Heights
