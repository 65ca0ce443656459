import AgentSpeak.Main
import AgentSpeak.Proofs.Agent.Applicability
import AgentSpeak.Proofs.Agent.Asking
import AgentSpeak.Proofs.Agent.Atomicity
import AgentSpeak.Proofs.Agent.Ending
import AgentSpeak.Proofs.Agent.Escaping
import AgentSpeak.Proofs.Agent.Freshness
import AgentSpeak.Proofs.Agent.Queue
import AgentSpeak.Proofs.Agent.Recorded
import AgentSpeak.Proofs.Agent.Reply
import AgentSpeak.Proofs.Beliefs.Checking
import AgentSpeak.Proofs.Beliefs.Completeness
import AgentSpeak.Proofs.Beliefs.Deepening
import AgentSpeak.Proofs.Beliefs.Snapshot
import AgentSpeak.Proofs.Formula.Malformed
import AgentSpeak.Proofs.Formula.RoundTrip
import AgentSpeak.Proofs.Number.Division
import AgentSpeak.Proofs.Program.Recovery
import AgentSpeak.Proofs.Program.RoundTrip
import AgentSpeak.Proofs.Program.Sparing
import AgentSpeak.Proofs.Program.Wildcards
import AgentSpeak.Proofs.Server.Isolation
import AgentSpeak.Proofs.Server.Refusal
import AgentSpeak.Proofs.Substitution.Restriction
import AgentSpeak.Proofs.Term.Order
import AgentSpeak.Proofs.Term.Quoting
import AgentSpeak.Proofs.Variants.Program
import AgentSpeak.Proofs.Agent.Looping
