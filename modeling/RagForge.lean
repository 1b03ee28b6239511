import RagForge.Rag.InputGate
import RagForge.Rag.OutputGate
import RagForge.Rag.Resume
import RagForge.Files.Text
import RagForge.Files.Repository
import RagForge.Files.StateMachine
import RagForge.Files.ReviewDecision
import RagForge.Files.Service
import RagForge.Files.DecisionOnce
import RagForge.Files.Sequential
import RagForge.Files.Requests
import RagForge.Files.Emission
import RagForge.Effect.Outcome
import RagForge.Files.DecisionFailure
import RagForge.Files.LateCompletion
import RagForge.Embedding.Types
import RagForge.Vector.Store
import RagForge.Vector.Service
import RagForge.Vector.Isolation
import RagForge.Embedding.Job
import RagForge.Embedding.Consumer
import RagForge.Batching.Machine
import RagForge.Batching.Invariants
import RagForge.Batching.Accounting
import RagForge.Batching.Shutdown
import RagForge.Batching.Calls
import RagForge.Rag.RerankScheduler
import RagForge.Rag.Reranker
import RagForge.Embedding.Delivery
import RagForge.Inference.Shutdown
import RagForge.Async.Gather
import RagForge.Eval.Scoring
import RagForge.Eval.Runner
import RagForge.Eval.Benchmark
import RagForge.Eval.Closing
import RagForge.Eval.Terminal
import RagForge.Eval.Leases
import RagForge.Effect.Embed
import RagForge.Files.Updates
import RagForge.Messaging.Broker
import RagForge.Pipeline.System
import RagForge.Pipeline.Protocol
import RagForge.Pipeline.Workers
import RagForge.Pipeline.Completion
import RagForge.Pipeline.Deletion
import RagForge.Lineage.Attribution
import RagForge.JsonText.Parse
import RagForge.JsonText.RoundTrip
import RagForge.JsonText.Prefix
import RagForge.Golden.Parser
import RagForge.Golden.Validation
import RagForge.Golden.Lines
import RagForge.JsonText.Sorted
import RagForge.Auth.Ticket
import RagForge.Auth.Envelope
import RagForge.Rpc.Client
import RagForge.Rpc.Permits
import RagForge.Rpc.Close
import RagForge.Effect.Built
import RagForge.Rag.Parts
import RagForge.Llm.Structured
import RagForge.Rag.Replies
import RagForge.Llm.Risk
import RagForge.Rag.RiskScan
import RagForge.Llm.Judge
import RagForge.Llm.Split
import RagForge.Rag.Scores
import RagForge.Rag.Judging
import RagForge.Rag.Judged
import RagForge.Memories.Candidate
import RagForge.Memories.Retrieve
import RagForge.Effect.Twin
import RagForge.Memories.Parts
import RagForge.Memories.Isolation
import RagForge.Memories.RequestId
import RagForge.Files.Patches
import RagForge.Files.Chunks
import RagForge.Sequence.Pages
import RagForge.Files.Audit
import RagForge.Vector.InMemory
import RagForge.Vector.Replacement
import RagForge.Files.Detector
import RagForge.Vector.Fusion
import RagForge.Rag.References
import RagForge.Golden.Canonical
import RagForge.Rag.Feedback
import RagForge.Memories.Scopes
import RagForge.Vector.Sparse
import RagForge.Py.DateTime
import RagForge.Rag.Metrics
