import FlowLint.Json.Writer
import FlowLint.Proofs.Aliases
import FlowLint.Proofs.Anchors
import FlowLint.Proofs.BreakingOff
import FlowLint.Proofs.Commands
import FlowLint.Proofs.Comments
import FlowLint.Proofs.Deletes
import FlowLint.Proofs.Faults
import FlowLint.Proofs.Guards
import FlowLint.Proofs.Injection
import FlowLint.Proofs.Isolation
import FlowLint.Proofs.KeyOrder
import FlowLint.Proofs.Layout
import FlowLint.Proofs.LineNumbers
import FlowLint.Proofs.Loading
import FlowLint.Proofs.Located
import FlowLint.Proofs.MatrixLabels
import FlowLint.Proofs.Merged
import FlowLint.Proofs.Nearest
import FlowLint.Proofs.Nesting
import FlowLint.Proofs.Parts
import FlowLint.Proofs.Rejection
import FlowLint.Proofs.Relaxing
import FlowLint.Proofs.Secrets
import FlowLint.Proofs.SnakeCase
import FlowLint.Proofs.Spelling
import FlowLint.Proofs.Suggestion
import FlowLint.Proofs.Unread
import FlowLint.Review
import FlowLint.Service
import FlowLint.Settings.Source
