import HttpSuite.Family
import HttpSuite.Main
import HttpSuite.Proofs.Isolation
import HttpSuite.Proofs.Recognition
import HttpSuite.Proofs.FirstFault
import HttpSuite.Proofs.Loading
import HttpSuite.Proofs.Executions
import HttpSuite.Proofs.Listing
import HttpSuite.Proofs.Reordering
import HttpSuite.Proofs.Tables
import HttpSuite.Proofs.Sharing
import HttpSuite.Proofs.LinkLife
import HttpSuite.Proofs.Phases
import HttpSuite.Proofs.TemplateForm
import HttpSuite.Proofs.EarliestError
import HttpSuite.Proofs.Concatenation
import HttpSuite.Proofs.Termination
import HttpSuite.Proofs.Expansion
import HttpSuite.Proofs.Heredoc
import HttpSuite.Proofs.Positions
import HttpSuite.Proofs.SpanOrder
import HttpSuite.Proofs.TreeSpans
import HttpSuite.Proofs.Printing
import HttpSuite.Proofs.Locations
import HttpSuite.Proofs.Flattening
import HttpSuite.Proofs.Leaves
import HttpSuite.Proofs.Lookup
import HttpSuite.Proofs.Agreement
import HttpSuite.Proofs.Shorthands
import HttpSuite.Proofs.Coherence
import HttpSuite.Proofs.OwnReference
import HttpSuite.Proofs.RequestHeaders
import HttpSuite.Proofs.Declarations
import HttpSuite.Proofs.LastValues
import HttpSuite.Proofs.StatusOrder
import HttpSuite.Proofs.IntegerCaptures
import HttpSuite.Proofs.Targets
