import SignalPaths.Dot.Description
import SignalPaths.Config.Layers
import SignalPaths.Session
import SignalPaths.Proofs.Path.Agreement
import SignalPaths.Proofs.Netlist.History
import SignalPaths.Proofs.Computation
import SignalPaths.Proofs.Path.Role
import SignalPaths.Proofs.Path.Route
import SignalPaths.Proofs.Fan
import SignalPaths.Proofs.Session
import SignalPaths.Proofs.Dot.Grammar
import SignalPaths.Proofs.Dot.Lexing
import SignalPaths.Proofs.Dot.Quotation
import SignalPaths.Proofs.Dot.Meaning
import SignalPaths.Proofs.Dot.RoundTrip
import SignalPaths.Proofs.Dot.Denotation
import SignalPaths.Proofs.Netlist.Parts
import SignalPaths.Proofs.Description.Build
import SignalPaths.Proofs.Description.Rebuild
import SignalPaths.Proofs.EdgeOrder
import SignalPaths.Proofs.Description.Json
import SignalPaths.Proofs.Search.BackEdges
import SignalPaths.Proofs.Search.Recursive
import SignalPaths.Proofs.Path.Backtracking
import SignalPaths.Proofs.Path.Unbranched
import SignalPaths.Proofs.Path.Composition
import SignalPaths.Proofs.Fan.Points
import SignalPaths.Proofs.Description.Outcome
import SignalPaths.Proofs.Netlist.Transpose
import SignalPaths.Proofs.Dot.Consistency
import SignalPaths.Proofs.Dot.Faults
import SignalPaths.Proofs.Path.Preference
import SignalPaths.Proofs.Netlist.Degree
import SignalPaths.Proofs.Fan.Degree
import SignalPaths.Proofs.Netlist.Register
import SignalPaths.Proofs.Config.Layers
import SignalPaths.Proofs.Toml.Strings
import SignalPaths.Proofs.Toml.Values
import SignalPaths.Proofs.Toml.Document
import SignalPaths.Proofs.Toml.Range
import SignalPaths.Proofs.Config.RoundTrip
import SignalPaths.Proofs.Netlist.Naming
import SignalPaths.Proofs.Netlist.Names
