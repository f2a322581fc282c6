import BackupRestore.Main
import BackupRestore.Proofs.Lookup
import BackupRestore.Proofs.Payloads
import BackupRestore.Proofs.Cursor
import BackupRestore.Proofs.Handles
import BackupRestore.Proofs.Packages
import BackupRestore.Proofs.Transfer
import BackupRestore.Proofs.Inflation
import BackupRestore.Proofs.Chunks
import BackupRestore.Proofs.Streaming
import BackupRestore.Proofs.Frames
import BackupRestore.Proofs.Phases
import BackupRestore.Proofs.Prefixes
import BackupRestore.Proofs.Coherence
import BackupRestore.Proofs.Grammar
import BackupRestore.Proofs.KeyNames
import BackupRestore.Proofs.Records
import BackupRestore.Proofs.Agreement
import BackupRestore.Proofs.Recovery
import BackupRestore.Proofs.Separation
import BackupRestore.Proofs.Spelling
import BackupRestore.Proofs.Files
import BackupRestore.Proofs.Journal
import BackupRestore.Proofs.Abreast
import BackupRestore.Proofs.Imprints
import BackupRestore.Proofs.Preservation
import BackupRestore.Proofs.Isolation
import BackupRestore.Proofs.Holdings
import BackupRestore.Proofs.Restores
import BackupRestore.Proofs.Confinement
import BackupRestore.Proofs.Outcomes
import BackupRestore.Proofs.Dumps
import BackupRestore.Proofs.Opens
import BackupRestore.Proofs.Restart
import BackupRestore.Proofs.Spans
import BackupRestore.Proofs.WholeReads
import BackupRestore.Proofs.ChunkCodes
import BackupRestore.Proofs.WireCodes
import BackupRestore.Proofs.Layers
import BackupRestore.Proofs.Enumeration
import BackupRestore.Proofs.SingleReads
import BackupRestore.Proofs.Fragments
