import Gateway.Spec.Aggregates
import Gateway.Lib.Median
import Gateway.Spec.Comparisons
import Gateway.Lib.Scalar
import Gateway.Model.Comparisons
import Gateway.Spec.CounterAgreement
import Gateway.Model.Summarize
import Gateway.Lib.PythonText
import Gateway.Lib.DictRenaming
import Gateway.Spec.AdmissionOwnership
import Gateway.Spec.AdmissionFairness
import Gateway.Spec.AdmissionShutdown
import Gateway.Spec.AdmissionRejection
import Gateway.Spec.RelayAccounting
import Gateway.Spec.BackendEjection
import Gateway.Spec.BatcherResolution
import Gateway.Spec.SSEExtraction
import Gateway.Spec.ClosedLoop
import Gateway.Spec.PrometheusRoundTrip
import Gateway.Spec.ChatBatching
import Gateway.Spec.PoolSelection
import Gateway.Spec.PoolClosing
import Gateway.Model.RunMatrix
import Gateway.Lib.Strconv
import Gateway.Spec.Authentication
import Gateway.Spec.ExactPromptSearch
import Gateway.Spec.MatrixDirectories
import Gateway.Spec.StreamClient
import Gateway.Model.MetricsAnalysis
import Gateway.Spec.CounterDeltas
import Gateway.Spec.BucketPercentile
import Gateway.Spec.CompleteDeltas
import Gateway.Spec.AdmissionGauges
import Gateway.Spec.BatcherObservations
import Gateway.Spec.ResumeSoundness
import Gateway.Spec.ResumeIdempotence
