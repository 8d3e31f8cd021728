import MutualEdge.Balancing
import MutualEdge.Breakdown
import MutualEdge.Common
import MutualEdge.Completeness
import MutualEdge.Conf
import MutualEdge.ConfFile
import MutualEdge.ConfLines
import MutualEdge.Cost
import MutualEdge.CostModel
import MutualEdge.Counts
import MutualEdge.DeadEnds
import MutualEdge.Denominators
import MutualEdge.Draws
import MutualEdge.EcmList
import MutualEdge.Elitism
import MutualEdge.Evaluate
import MutualEdge.Evolve
import MutualEdge.Export
import MutualEdge.GaInvariant
import MutualEdge.Gasgen
import MutualEdge.GenTask
import MutualEdge.Gene
import MutualEdge.GeneWise
import MutualEdge.Generations
import MutualEdge.Generators
import MutualEdge.InitRuns
import MutualEdge.Lib.Argmax
import MutualEdge.Lib.Average
import MutualEdge.Lib.Bytes
import MutualEdge.Lib.Checks
import MutualEdge.Lib.Choice
import MutualEdge.Lib.Doubles
import MutualEdge.Lib.Fold
import MutualEdge.Lib.Histogram
import MutualEdge.Lib.Ledger
import MutualEdge.Lib.LineReader
import MutualEdge.Lib.LinkRing
import MutualEdge.Lib.Lockstep
import MutualEdge.Lib.Loops
import MutualEdge.Lib.Ordered
import MutualEdge.Lib.Outcome
import MutualEdge.Lib.Pkey
import MutualEdge.Lib.Potential
import MutualEdge.Lib.Printf
import MutualEdge.Lib.Scanf
import MutualEdge.Lib.Script
import MutualEdge.Lib.Sections
import MutualEdge.Lib.Streams
import MutualEdge.Lib.Symbolic
import MutualEdge.Lib.Tabulate
import MutualEdge.Loading
import MutualEdge.LocalOnly
import MutualEdge.MaxType
import MutualEdge.MemOverhead
import MutualEdge.Moduli
import MutualEdge.Outputs
import MutualEdge.Overruns
import MutualEdge.Parameters
import MutualEdge.Penalty
import MutualEdge.Pipeline
import MutualEdge.Plans
import MutualEdge.Population
import MutualEdge.Ranking
import MutualEdge.Ranks
import MutualEdge.Ratios
import MutualEdge.Reasons
import MutualEdge.Recombination
import MutualEdge.Refinement
import MutualEdge.Reordering
import MutualEdge.Report
import MutualEdge.Rounds
import MutualEdge.Rows
import MutualEdge.RunGA
import MutualEdge.Selection
import MutualEdge.Sgx.Adversary
import MutualEdge.Sgx.Answers
import MutualEdge.Sgx.Attestation
import MutualEdge.Sgx.Attsdoc
import MutualEdge.Sgx.Calls
import MutualEdge.Sgx.Capacity
import MutualEdge.Sgx.Confidential
import MutualEdge.Sgx.ControlFlow
import MutualEdge.Sgx.Effort
import MutualEdge.Sgx.Fidelity
import MutualEdge.Sgx.Framing
import MutualEdge.Sgx.Links
import MutualEdge.Sgx.Offload
import MutualEdge.Sgx.Progress
import MutualEdge.Sgx.Relay
import MutualEdge.Sgx.RelayInvariant
import MutualEdge.Sgx.RelaySteps
import MutualEdge.Sgx.Replay
import MutualEdge.Sgx.Service
import MutualEdge.Sgx.Session
import MutualEdge.Sgx.Transmit
import MutualEdge.Shape
import MutualEdge.Sizes
import MutualEdge.Tables
import MutualEdge.Targets
import MutualEdge.TaskLines
import MutualEdge.Termination
import MutualEdge.Trend
import MutualEdge.Trust.Direction
import MutualEdge.Trust.Mileage
import MutualEdge.Trust.ReadErrors
import MutualEdge.Utilpower
import MutualEdge.WholeRun
import MutualEdge.Written
