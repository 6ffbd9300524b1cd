import FiniteAutomata.BitSet.Registers
import FiniteAutomata.Dfa.Path
import FiniteAutomata.Dfa.Rulebook
import FiniteAutomata.Matcher.Basic
import FiniteAutomata.Nfa.Movebook
import FiniteAutomata.Nfa.Path
import FiniteAutomata.Pattern.Grammar
import FiniteAutomata.Pattern.Language
import FiniteAutomata.Pattern.Parser
import FiniteAutomata.Renumbering
import FiniteAutomata.Thompson.Origins
import FiniteAutomata.Proofs.Nfa.Closure
import FiniteAutomata.Proofs.Nfa.Movebook
import FiniteAutomata.Proofs.Nfa.Reachability
import FiniteAutomata.Proofs.Nfa.Routes
import FiniteAutomata.Proofs.Nfa.Regions
import FiniteAutomata.Proofs.Nfa.Renumbering
import FiniteAutomata.Proofs.Nfa.Trim
import FiniteAutomata.Proofs.Dfa.Lookup
import FiniteAutomata.Proofs.Dfa.Distinct
import FiniteAutomata.Proofs.Determinization.Exploration
import FiniteAutomata.Proofs.Determinization.Order
import FiniteAutomata.Proofs.Determinization.Simulation
import FiniteAutomata.Proofs.Determinization.Discovery
import FiniteAutomata.Proofs.Determinization.Table
import FiniteAutomata.Proofs.Determinization.Bound
import FiniteAutomata.Proofs.Determinization.Renumbering
import FiniteAutomata.Proofs.Thompson.Construction
import FiniteAutomata.Proofs.Thompson.Isolation
import FiniteAutomata.Proofs.Thompson.Recognition
import FiniteAutomata.Proofs.Matching
import FiniteAutomata.Proofs.Pattern.Language
import FiniteAutomata.Proofs.Pattern.NormalForm
import FiniteAutomata.Proofs.Pattern.Reading
import FiniteAutomata.Proofs.Pattern.Parsing
import FiniteAutomata.Proofs.Pattern.RoundTrip
import FiniteAutomata.Proofs.Pattern.Brackets
import FiniteAutomata.Proofs.Pattern.Canonical
import FiniteAutomata.Proofs.Pattern.Balance
import FiniteAutomata.Proofs.Pattern.Progress
import FiniteAutomata.Proofs.Pattern.Derivations
import FiniteAutomata.Proofs.Pattern.Grammar
import FiniteAutomata.Proofs.Pattern.Faults
import FiniteAutomata.Proofs.Pattern.Shortest
import FiniteAutomata.Proofs.Thompson.Trim
import FiniteAutomata.Proofs.Liveness
import FiniteAutomata.Proofs.Determinization.Shortlex
import FiniteAutomata.Proofs.Determinization.Record
import FiniteAutomata.Proofs.Log
import FiniteAutomata.Proofs.Dfa.Validation
import FiniteAutomata.Proofs.Dfa.Run
import FiniteAutomata.Proofs.Determinization.Deterministic
import FiniteAutomata.Proofs.BitSet.Members
import FiniteAutomata.Proofs.BitSet.Registers
import FiniteAutomata.Proofs.Occurrences
import FiniteAutomata.Proofs.Nfa.LeastClosure
import FiniteAutomata.Proofs.Thompson.Relocation
import FiniteAutomata.Proofs.Inventory
import FiniteAutomata.Proofs.PlainText
