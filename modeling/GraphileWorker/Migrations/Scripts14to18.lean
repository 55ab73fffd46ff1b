import GraphileWorker.Migrations.SharedLines

/-! # The files `m000014.sql` to `m000018.sql` -/
namespace GraphileWorker.Migrations.Scripts

set_option maxRecDepth 4096

def m000014 : Script where
  stmts := [["DROP FUNCTION @.add_job;"],
 ["CREATE FUNCTION @.add_job(identifier text, payload json DEFAULT NULL::json, queue_name text DEFAULT NULL::text, run_at timestamp with time zone DEFAULT NULL::timestamp with time zone, max_attempts int DEFAULT NULL::int, job_key text DEFAULT NULL::text, priority int DEFAULT NULL::int, flags text[] DEFAULT NULL::text[], job_key_mode text DEFAULT 'replace'::text) RETURNS @.jobs
LANGUAGE plpgsql
AS $$
declare
    v_job @.jobs;"] ++ addJobReplaces ++ ["        return v_job;
    elsif job_key_mode = 'unsafe_dedupe' then
        insert into @.tasks (identifier)
        values (identifier)
        on conflict do nothing;
        if queue_name is not null then
            insert into @.job_queues (queue_name)
            values (queue_name)
            on conflict do nothing;
        end if;
        insert into @.jobs ("] ++ dedupeColumns ++ ["        from @.tasks
        left join @.job_queues
        on job_queues.queue_name = queue_name
        where tasks.identifier = identifier"] ++ bumpRevision ++ addJobEnd,
 ["DROP FUNCTION @.reschedule_jobs;"],
 ["CREATE FUNCTION @.reschedule_jobs(job_ids bigint[], run_at timestamp with time zone DEFAULT NULL::timestamp with time zone, priority int DEFAULT NULL::int, attempts int DEFAULT NULL::int, max_attempts int DEFAULT NULL::int) RETURNS SETOF @.jobs
LANGUAGE sql
AS $$
    UPDATE @.jobs
    SET
        run_at = coalesce(run_at, jobs.run_at),
        priority = coalesce(priority::smallint, jobs.priority),
        attempts = coalesce(attempts::smallint, jobs.attempts),
        max_attempts = coalesce(max_attempts::smallint, jobs.max_attempts),
        updated_at = now()
    WHERE id = ANY(job_ids)
    AND (
        locked_at is null
    OR
        locked_at < NOW() - interval '4 hours'
    )
    RETURNING *;
$$;"]]

def m000015 : Script where
  stmts := [["DROP FUNCTION @.jobs__increase_job_queue_count();"],
 ["DROP FUNCTION @.jobs__decrease_job_queue_count();"],
 ["DROP FUNCTION @.tg__update_timestamp();"],
 ["CREATE FUNCTION @.force_unlock_workers(worker_ids text[]) RETURNS void AS $$
UPDATE @.jobs
SET locked_at = null, locked_by = null
WHERE locked_by = ANY(worker_ids);
UPDATE @.job_queues
SET locked_at = null, locked_by = null
WHERE locked_by = ANY(worker_ids);
$$ LANGUAGE sql VOLATILE;"]]

def m000016 : Script where
  stmts := [["ALTER TABLE @.jobs RENAME TO _private_jobs;"],
 ["ALTER TABLE @.job_queues RENAME TO _private_job_queues;"],
 ["ALTER TABLE @.tasks RENAME TO _private_tasks;"],
 ["ALTER TABLE @.known_crontabs RENAME TO _private_known_crontabs;"],
 ["DROP FUNCTION @.add_job;"],
 ["CREATE FUNCTION @.add_job(identifier text, payload json DEFAULT NULL::json, queue_name text DEFAULT NULL::text, run_at timestamp with time zone DEFAULT NULL::timestamp with time zone, max_attempts integer DEFAULT NULL::integer, job_key text DEFAULT NULL::text, priority integer DEFAULT NULL::integer, flags text[] DEFAULT NULL::text[], job_key_mode text DEFAULT 'replace'::text) RETURNS @._private_jobs
LANGUAGE plpgsql
AS $$
declare
    v_job @._private_jobs;"] ++ addJobReplaces ++ dedupeNames ++ dedupeColumns ++ ["        from @._private_tasks as tasks
        left join @._private_job_queues as job_queues
        on job_queues.queue_name = queue_name
        where tasks.identifier = identifier"] ++ bumpRevision ++ addJobEnd,
 ["DROP FUNCTION @.add_jobs;"],
 ["CREATE FUNCTION @.add_jobs(specs @.job_spec[], job_key_preserve_run_at boolean DEFAULT false) RETURNS SETOF @._private_jobs"] ++ addJobsNames ++ keyIndexNote ++ addJobsInsert ++ ["        -- always reset error/retry state"] ++ addJobsReset ++ ["$$;"],
 ["DROP FUNCTION @.complete_jobs;"],
 ["CREATE FUNCTION @.complete_jobs(job_ids bigint[]) RETURNS SETOF @._private_jobs
    LANGUAGE sql
    AS $$
    delete from @._private_jobs as jobs
        where id = any(job_ids)
        and (
            locked_at is null
        or
            locked_at < now() - interval '4 hours'
        )
        returning *;
$$;"],
 ["DROP FUNCTION @.force_unlock_workers;"],
 ["CREATE FUNCTION @.force_unlock_workers(worker_ids text[]) RETURNS void
    LANGUAGE sql
    AS $$
        update @._private_jobs as jobs
        set locked_at = null, locked_by = null
        where locked_by = any(worker_ids);
        update @._private_job_queues as job_queues
        set locked_at = null, locked_by = null
        where locked_by = any(worker_ids);
$$;"],
 ["DROP FUNCTION IF EXISTS @.permanently_fail_jobs;"],
 ["CREATE FUNCTION @.permanently_fail_jobs(job_ids bigint[], error_message text DEFAULT NULL::text) RETURNS SETOF @._private_jobs
LANGUAGE sql
AS $$"] ++ failUpdate ++ ["    RETURNING *;
$$;"],
 ["DROP FUNCTION @.remove_job;"],
 ["CREATE FUNCTION @.remove_job(job_key text) RETURNS @._private_jobs"] ++ removeUnlocked ++ removeLocked ++ ["    RETURN v_job;
end;
$$;"],
 ["DROP FUNCTION @.reschedule_jobs;"],
 ["CREATE FUNCTION @.reschedule_jobs(job_ids bigint[], run_at timestamp with time zone DEFAULT NULL::timestamp with time zone, priority integer DEFAULT NULL::integer, attempts integer DEFAULT NULL::integer, max_attempts integer DEFAULT NULL::integer) RETURNS SETOF @._private_jobs
LANGUAGE sql
AS $$"] ++ rescheduleUpdate ++ ["    RETURNING *;
$$;"]]

def m000017 : Script where
  stmts := [["CREATE VIEW @.jobs AS (
    SELECT
        jobs.id,
        job_queues.queue_name,
        tasks.identifier AS task_identifier,
        jobs.priority,
        jobs.run_at,
        jobs.attempts,
        jobs.max_attempts,
        jobs.last_error,
        jobs.created_at,
        jobs.updated_at,
        jobs.key,
        jobs.locked_at,
        jobs.locked_by,
        jobs.revision,
        jobs.flags
    FROM @._private_jobs AS jobs
    INNER JOIN @._private_tasks AS tasks
    ON tasks.id = jobs.task_id
    LEFT JOIN @._private_job_queues AS job_queues
    ON job_queues.id = jobs.job_queue_id
);"]]

def m000018 : Script where
  stmts := [["DROP TRIGGER _900_after_insert ON @._private_jobs;"],
 ["DROP FUNCTION @.tg_jobs__after_insert;"],
 addJobHead ++ addJobReplaces ++ dedupeNames ++ dedupeColumns ++ dedupeConflict ++ notifyInserted ++ addJobEnd,
 ["CREATE OR REPLACE FUNCTION @.add_jobs(specs @.job_spec[], job_key_preserve_run_at boolean DEFAULT false) RETURNS SETOF @._private_jobs"] ++ addJobsNames ++ ["
    -- WARNING: this count is not 100% accurate; 'on conflict' clause will cause it to be an overestimate"] ++ notifyCount ++ keyIndexNote ++ addJobsInsert ++ ["        -- always reset error/retry state"] ++ addJobsReset ++ ["$$;"],
 ["CREATE OR REPLACE FUNCTION @.remove_job(job_key text) RETURNS @._private_jobs"] ++ removeUnlocked ++ ["        perform pg_notify('jobs:insert', '\x7b\"r\":' || random()::text || ',\"count\":-1\x7d');"] ++ removeLocked ++ ["    RETURN v_job;
end;
$$;"]]

end GraphileWorker.Migrations.Scripts
