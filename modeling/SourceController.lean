import SourceController.Go
import SourceController.Artifact
import SourceController.ObjectStore
import SourceController.S3Storage
import SourceController.Retention
import SourceController.FilePath
import SourceController.LocalFs
import SourceController.Tar
import SourceController.Archive
import SourceController.ArchiveContents
import SourceController.ReadBack
import SourceController.Lock
import SourceController.Adapter
import SourceController.Filesystem
import SourceController.Listing
import SourceController.Server
import SourceController.Wiring
