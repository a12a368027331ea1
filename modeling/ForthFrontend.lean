import ForthFrontend.Main
import ForthFrontend.Pager
import ForthFrontend.Proofs.Analysis
import ForthFrontend.Proofs.Analysis.Append
import ForthFrontend.Proofs.Compilation
import ForthFrontend.Proofs.Compilation.AllOrNothing
import ForthFrontend.Proofs.Dump
import ForthFrontend.Proofs.Include.Conservation
import ForthFrontend.Proofs.Include.Inline
import ForthFrontend.Proofs.Include.Position
import ForthFrontend.Proofs.Include.ReadAhead
import ForthFrontend.Proofs.Include.Strict
import ForthFrontend.Proofs.Include.Tree
import ForthFrontend.Proofs.Include.Workers
import ForthFrontend.Proofs.Manifest
import ForthFrontend.Proofs.Scan.Printed
import ForthFrontend.Proofs.Analysis.Relocation
import ForthFrontend.Proofs.Operation
import ForthFrontend.Proofs.Analysis.Layout
import ForthFrontend.Proofs.Include.OnePass
import ForthFrontend.Proofs.Include.Termination
import ForthFrontend.Proofs.Scan.Meaning
import ForthFrontend.Proofs.Scan.Gap
import ForthFrontend.Proofs.Source.Padding
import ForthFrontend.Proofs.Compilation.LineEnding
import ForthFrontend.Proofs.Analysis.WellFormed
import ForthFrontend.Proofs.Text.Case
import ForthFrontend.Proofs.Analysis.Duplicate
import ForthFrontend.Proofs.Pager
import ForthFrontend.Proofs.Operation.Told
import ForthFrontend.Proofs.Include.Once
import ForthFrontend.Proofs.Options
import ForthFrontend.Proofs.Include.Pool
import ForthFrontend.Proofs.Include.Request
